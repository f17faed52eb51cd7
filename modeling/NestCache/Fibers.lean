import NestCache.Dialogue

/-!
# Fibers: dialogues that share a single-threaded process

Some commands of a dialogue access a state that the whole process shares and
are answered at once by `inner`; the others leave the process and are answered
later, in any order.  A fiber first runs the synchronous part of its dialogue, up
to its first outer command.  After a reply it goes on one command at a time, and
anything else may happen in between.

A bound on the commands of the rest of a fiber survives its own steps: `tick_sends`
and `reply_sends`.  Whatever else the process does, a fiber keeps its rest.
-/

/-- A running dialogue: what is left of it, and whether its next command is on
its way. -/
structure Fiber (C : Type) (R : C → Type) (ε α : Type) where
  rest : Dialogue C R ε α
  awaiting : Bool

namespace Fiber

variable {C : Type} {R : C → Type} {ε α β σ : Type}
variable (inner : σ → (c : C) → Option (σ × R c))

/-- The synchronous part of a dialogue. -/
def advance : Dialogue C R ε α → σ → σ × Dialogue C R ε α
  | .done a, s => (s, .done a)
  | .fail e, s => (s, .fail e)
  | .send c k, s =>
      match inner s c with
      | some (s', r) => advance (k r) s'
      | none => (s, .send c k)

/-- The first command of a dialogue. -/
def command : Dialogue C R ε α → Option C
  | .send c _ => some c
  | _ => none

/-- Start a fiber: its first outer command is issued at once. -/
def start (p : Dialogue C R ε α) (s : σ) : σ × Fiber C R ε α × Option C :=
  let (s', rest) := advance inner p s
  (s', ⟨rest, (command rest).isSome⟩, command rest)

/-- Run the next command of a fiber: it is answered at once, or issued. -/
def tick (fiber : Fiber C R ε α) (s : σ) : Option (σ × Fiber C R ε α × Option C) :=
  match fiber with
  | ⟨.send c k, false⟩ =>
      match inner s c with
      | some (s', r) => some (s', ⟨k r, false⟩, none)
      | none => some (s, ⟨.send c k, true⟩, some c)
  | _ => none

/-- The reply to the command a fiber waits for. -/
def reply (fiber : Fiber C R ε α) (respond : (c : C) → R c) : Option (Fiber C R ε α) :=
  match fiber with
  | ⟨.send c k, true⟩ => some ⟨k (respond c), false⟩
  | _ => none

variable {inner} {s s' : σ}

/-- A command that is answered inside is not seen outside. -/
theorem advance_inner {c : C} {k : R c → Dialogue C R ε α} {r : R c}
    (h : inner s c = some (s', r)) : advance inner (.send c k) s = advance inner (k r) s' := by
  simp only [advance, h]

/-- A command that is not answered inside is where the program waits. -/
theorem advance_outer {c : C} {k : R c → Dialogue C R ε α} (h : inner s c = none) :
    advance inner (.send c k) s = (s, .send c k) := by
  simp only [advance, h]

/-- Relabelling the result does not change how far a program gets. The
induction is on the program, along the commands that are answered inside. -/
theorem advance_map (p : Dialogue C R ε α) (f : α → β) (s : σ) :
    advance inner (p.map f) s = ((advance inner p s).1, (advance inner p s).2.map f) := by
  induction p generalizing s with
  | done a => rfl
  | fail e => rfl
  | send c k ih =>
      cases h : inner s c with
      | none =>
          rw [advance_outer h]
          exact advance_outer h
      | some p =>
          obtain ⟨s', r⟩ := p
          rw [advance_inner h, ← ih r s']
          exact advance_inner h

/-- The synchronous part ends at an outer command. Were it answered inside, the
program would have gone on. -/
theorem inner_advance {p : Dialogue C R ε α} {c : C}
    (h : command (advance inner p s).2 = some c) : inner (advance inner p s).1 c = none := by
  induction p generalizing s with
  | done a => cases h
  | fail e => cases h
  | send c' k ih =>
      cases hinner : inner s c' with
      | none =>
          rw [advance_outer hinner] at h ⊢
          obtain rfl : c' = c := Option.some.inj h
          exact hinner
      | some p =>
          obtain ⟨s', r⟩ := p
          rw [advance_inner hinner] at h ⊢
          exact ih r h

variable {admits : (c : C) → R c → Prop} {allowed : C → Prop}

/-- A dialogue that sends only allowed commands begins with one. -/
theorem command_allowed {p : Dialogue C R ε α} (h : p.Sends admits allowed) {c : C}
    (hc : command p = some c) : allowed c := by
  cases p with
  | done a => cases hc
  | fail e => cases hc
  | send c' k =>
      obtain rfl : c' = c := Option.some.inj hc
      exact h.1

/-- **One command of a fiber.** What it did was allowed, and so is what
is left. -/
theorem tick_sends {fiber fiber' : Fiber C R ε α} {issued : Option C}
    (h : fiber.tick inner s = some (s', fiber', issued))
    (hadmits : ∀ c s' r, inner s c = some (s', r) → allowed c → admits c r)
    (hrest : fiber.rest.Sends admits allowed) :
    fiber'.rest.Sends admits allowed ∧
      (∀ c, issued = some c → allowed c ∧ inner s c = none ∧ s' = s) ∧
      (issued = none → ∃ c r, allowed c ∧ inner s c = some (s', r)) := by
  obtain ⟨rest, awaiting⟩ := fiber
  cases rest with
  | done a => cases h
  | fail e => cases h
  | send c k =>
      cases awaiting with
      | true => cases h
      | false =>
          cases hinner : inner s c with
          | none =>
              simp only [tick, hinner, Option.some.injEq, Prod.mk.injEq] at h
              obtain ⟨rfl, rfl, rfl⟩ := h
              refine ⟨hrest, ?_, nofun⟩
              rintro _ ⟨⟩
              exact ⟨hrest.1, hinner, rfl⟩
          | some p =>
              obtain ⟨s₁, r⟩ := p
              simp only [tick, hinner, Option.some.injEq, Prod.mk.injEq] at h
              obtain ⟨rfl, rfl, rfl⟩ := h
              have hr : admits c r := hadmits c s₁ r hinner hrest.1
              exact ⟨hrest.2 r hr, nofun, fun _ => ⟨c, r, hrest.1, hinner⟩⟩

/-- **A reply to a fiber** leaves it with the rest for that reply. -/
theorem reply_sends {fiber fiber' : Fiber C R ε α} {respond : (c : C) → R c}
    (h : fiber.reply respond = some fiber') (hadmits : ∀ c, admits c (respond c))
    (hrest : fiber.rest.Sends admits allowed) : fiber'.rest.Sends admits allowed := by
  obtain ⟨rest, awaiting⟩ := fiber
  cases rest with
  | done a => cases h
  | fail e => cases h
  | send c k =>
      cases awaiting with
      | false => cases h
      | true =>
          obtain rfl : ⟨k (respond c), false⟩ = fiber' := Option.some.inj h
          exact hrest.2 _ (hadmits c)

end Fiber
