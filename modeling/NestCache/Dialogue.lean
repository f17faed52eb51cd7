import Mathlib.Tactic.Common

/-!
# Dialogues: programs that talk to a server one command at a time

A `Dialogue` is the shape of an asynchronous function whose only effects are
the commands it awaits: it returns, throws, or sends a command and continues
with the reply.  The reply type may depend on the command, so a rejected
command is an ordinary reply that the continuation inspects.

`exec` plays a dialogue against a deterministic server and records the final
state, the commands sent and the result; `EndsAlike` compares two executions of
one dialogue.  Three predicates speak about every execution at once: `Sends`
bounds the commands whatever the server replies, `Meets` is the weakest
precondition of a result when the replies are admitted by a given relation, and
`FailsEarly` confines errors of a kind to the time before the first command
that matters.
-/

/-- A program that sends commands `C`, reads replies `R c`, throws `ε` and
returns `α`. -/
inductive Dialogue (C : Type) (R : C → Type) (ε α : Type) : Type
  | done (value : α)
  | fail (error : ε)
  | send (command : C) (resume : R command → Dialogue C R ε α)

namespace Dialogue

variable {C : Type} {R : C → Type} {ε α β σ : Type}

/-- Sequencing: a thrown error skips the rest. -/
def bind : Dialogue C R ε α → (α → Dialogue C R ε β) → Dialogue C R ε β
  | done a, f => f a
  | fail e, _ => fail e
  | send c k, f => send c (fun r => (k r).bind f)

/-- `try … catch`: the handler runs on a thrown error only. -/
def tryCatch : Dialogue C R ε α → (ε → Dialogue C R ε α) → Dialogue C R ε α
  | done a, _ => done a
  | fail e, h => h e
  | send c k, h => send c (fun r => (k r).tryCatch h)

instance : Monad (Dialogue C R ε) where
  pure := done
  bind := bind

instance : MonadExcept ε (Dialogue C R ε) where
  throw := fail
  tryCatch := tryCatch

/-- Send one command and read its reply as a value or an error. -/
def request (c : C) (read : R c → Except ε α) : Dialogue C R ε α :=
  send c fun r => match read r with
    | .ok a => done a
    | .error e => fail e

/-- The same program with its result relabelled. -/
def map (f : α → β) (p : Dialogue C R ε α) : Dialogue C R ε β := p.bind (done ∘ f)

/-- The same program over other commands, whose replies are read back. -/
def mapCommands {C' : Type} {R' : C' → Type} (embed : C → C')
    (read : (c : C) → R' (embed c) → R c) : Dialogue C R ε α → Dialogue C' R' ε α
  | done a => done a
  | fail e => fail e
  | send c k => send (embed c) fun r => (k (read c r)).mapCommands embed read

/-- Lift a computation that needs no command. -/
def ofExcept : Except ε α → Dialogue C R ε α
  | .ok a => done a
  | .error e => fail e

@[simp] theorem pure_eq (a : α) : (pure a : Dialogue C R ε α) = done a := rfl

@[simp] theorem bind_eq (p : Dialogue C R ε α) (f : α → Dialogue C R ε β) :
    (p >>= f) = p.bind f := rfl

/-- Reading a reply further. -/
theorem request_bind_ofExcept (c : C) (read : R c → Except ε α) (f : α → Except ε β) :
    (request c read).bind (fun a => ofExcept (f a)) = request c fun r => (read r).bind f := by
  refine congrArg (send c) (funext fun r => ?_)
  dsimp only
  cases read r with
  | ok a => cases f a <;> rfl
  | error e => rfl

/-- Sequencing is associative; the induction is on the first program. -/
theorem bind_assoc {γ : Type} (p : Dialogue C R ε α) (f : α → Dialogue C R ε β)
    (g : β → Dialogue C R ε γ) : (p.bind f).bind g = p.bind fun a => (f a).bind g := by
  induction p with
  | done a => rfl
  | fail e => rfl
  | send c k ih => exact congrArg (send c) (funext ih)

/-- How a dialogue ended: the server's state, the commands sent in order and
the value or error. -/
structure Ending (σ C ε α : Type) where
  state : σ
  sent : List C
  result : Except ε α

/-- Record the commands sent before an ending. -/
def Ending.after (before : List C) (e : Ending σ C ε α) : Ending σ C ε α :=
  { e with sent := before ++ e.sent }

@[simp] theorem Ending.after_nil (e : Ending σ C ε α) : e.after [] = e := rfl

@[simp] theorem Ending.after_state (l : List C) (e : Ending σ C ε α) :
    (e.after l).state = e.state := rfl

@[simp] theorem Ending.after_result (l : List C) (e : Ending σ C ε α) :
    (e.after l).result = e.result := rfl

/-- Play a dialogue against a server that answers each command and moves on. -/
def exec (server : σ → (c : C) → σ × R c) : Dialogue C R ε α → σ → Ending σ C ε α
  | done a, s => ⟨s, [], .ok a⟩
  | fail e, s => ⟨s, [], .error e⟩
  | send c k, s =>
      ((k (server s c).2).exec server (server s c).1).after [c]

variable (server : σ → (c : C) → σ × R c)

@[simp] theorem exec_done (a : α) (s : σ) :
    (done a : Dialogue C R ε α).exec server s = ⟨s, [], .ok a⟩ := rfl

@[simp] theorem exec_fail (e : ε) (s : σ) :
    (fail e : Dialogue C R ε α).exec server s = ⟨s, [], .error e⟩ := rfl

@[simp] theorem exec_send (c : C) (k : R c → Dialogue C R ε α) (s : σ) :
    (send c k).exec server s =
      ((k (server s c).2).exec server (server s c).1).after [c] := rfl

@[simp] theorem exec_request (c : C) (read : R c → Except ε α) (s : σ) :
    (request c read).exec server s = ⟨(server s c).1, [c], read (server s c).2⟩ := by
  simp only [request, exec_send]
  cases read (server s c).2 <;> rfl

@[simp] theorem exec_ofExcept (x : Except ε α) (s : σ) :
    (ofExcept x : Dialogue C R ε α).exec server s = ⟨s, [], x⟩ := by
  cases x <;> rfl

/-- What a sequence does after its first part: continue from the state and
value reached, or keep the error. -/
theorem exec_bind (p : Dialogue C R ε α) (f : α → Dialogue C R ε β) (s : σ) :
    (p.bind f).exec server s =
      match (p.exec server s).result with
      | .ok a => ((f a).exec server (p.exec server s).state).after (p.exec server s).sent
      | .error e => ⟨(p.exec server s).state, (p.exec server s).sent, .error e⟩ := by
  induction p generalizing s with
  | done a => simp [bind]
  | fail e => simp [bind]
  | send c k ih =>
      simp only [bind, exec_send, ih]
      cases h : ((k (server s c).2).exec server (server s c).1).result <;>
        simp [h, Ending.after]

/-- Sequencing after a value. -/
theorem exec_bind_ok {p : Dialogue C R ε α} {s : σ} {a : α}
    (h : (p.exec server s).result = .ok a) (f : α → Dialogue C R ε β) :
    (p.bind f).exec server s =
      ((f a).exec server (p.exec server s).state).after (p.exec server s).sent := by
  rw [exec_bind, h]

/-- Sequencing after an error. -/
theorem exec_bind_error {p : Dialogue C R ε α} {s : σ} {e : ε}
    (h : (p.exec server s).result = .error e) (f : α → Dialogue C R ε β) :
    (p.bind f).exec server s = ⟨(p.exec server s).state, (p.exec server s).sent, .error e⟩ := by
  rw [exec_bind, h]

/-- A handler takes over exactly when the body threw. -/
theorem exec_tryCatch (p : Dialogue C R ε α) (h : ε → Dialogue C R ε α) (s : σ) :
    (p.tryCatch h).exec server s =
      match (p.exec server s).result with
      | .ok _ => p.exec server s
      | .error e => ((h e).exec server (p.exec server s).state).after (p.exec server s).sent := by
  induction p generalizing s with
  | done a => simp [tryCatch]
  | fail e => simp [tryCatch]
  | send c k ih =>
      simp only [tryCatch, exec_send, ih]
      cases hr : ((k (server s c).2).exec server (server s c).1).result <;>
        simp [hr, Ending.after]

/-- A handler is not used after a value. -/
theorem exec_tryCatch_ok {p : Dialogue C R ε α} {s : σ} {a : α}
    (h : (p.exec server s).result = .ok a) (handler : ε → Dialogue C R ε α) :
    (p.tryCatch handler).exec server s = p.exec server s := by
  rw [exec_tryCatch, h]

/-- A handler continues from the state in which the body threw. -/
theorem exec_tryCatch_error {p : Dialogue C R ε α} {s : σ} {e : ε}
    (h : (p.exec server s).result = .error e) (handler : ε → Dialogue C R ε α) :
    (p.tryCatch handler).exec server s =
      ((handler e).exec server (p.exec server s).state).after (p.exec server s).sent := by
  rw [exec_tryCatch, h]

/-- Two states of the server from which a dialogue ends with the same
result. -/
def EndsAlike (s s' : σ) (p : Dialogue C R ε α) : Prop :=
  (p.exec server s).result = (p.exec server s').result

section EndsAlike

variable {server} {s s' : σ}

/-- A computation without commands ends alike from any two states. -/
theorem endsAlike_ofExcept (x : Except ε α) :
    EndsAlike server s s' (ofExcept x : Dialogue C R ε α) := by
  simp [EndsAlike]

/-- A computation that needs no command gives both states the same value. -/
theorem EndsAlike.prepare (x : Except ε β) {f : β → Dialogue C R ε α}
    (hf : ∀ b, x = .ok b → EndsAlike server s s' (f b)) :
    EndsAlike server s s' ((ofExcept x).bind f) := by
  cases x with
  | error e => rfl
  | ok b => exact hf b rfl

/-- A reply matters for what is read of it. -/
theorem EndsAlike.request {c : C} {read : R c → Except ε α}
    (hread : read (server s c).2 = read (server s' c).2) :
    EndsAlike server s s' (request c read) := by
  rw [EndsAlike, exec_request, exec_request, hread]

/-- Relabelling results keeps two endings alike. -/
theorem EndsAlike.map {p : Dialogue C R ε α} (hp : EndsAlike server s s' p) (f : α → β) :
    EndsAlike server s s' (p.map f) := by
  rw [EndsAlike] at hp
  rw [EndsAlike, Dialogue.map, exec_bind, exec_bind, hp]
  cases (p.exec server s').result <;> rfl

end EndsAlike

/-- The result satisfies `post` whenever every reply is one that `admits`
allows for its command. -/
def Meets (admits : (c : C) → R c → Prop) (post : Except ε α → Prop) :
    Dialogue C R ε α → Prop
  | done a => post (.ok a)
  | fail e => post (.error e)
  | send c k => ∀ r, admits c r → (k r).Meets admits post

section Meets

variable {admits : (c : C) → R c → Prop} {post : Except ε α → Prop}

@[simp] theorem meets_done (a : α) :
    (done a : Dialogue C R ε α).Meets admits post ↔ post (.ok a) := Iff.rfl

@[simp] theorem meets_fail (e : ε) :
    (fail e : Dialogue C R ε α).Meets admits post ↔ post (.error e) := Iff.rfl

@[simp] theorem meets_send (c : C) (k : R c → Dialogue C R ε α) :
    (send c k).Meets admits post ↔ ∀ r, admits c r → (k r).Meets admits post := Iff.rfl

@[simp] theorem meets_ofExcept (x : Except ε α) :
    (ofExcept x : Dialogue C R ε α).Meets admits post ↔ post x := by
  cases x <;> rfl

@[simp] theorem meets_request (c : C) (read : R c → Except ε α) :
    (request c read).Meets admits post ↔ ∀ r, admits c r → post (read r) := by
  simp only [request, meets_send]
  refine forall₂_congr fun r _ => ?_
  cases read r <;> rfl

/-- **Sequencing rule.**  The first part may end with a value from which the
second part meets the postcondition, or with an error that meets it itself. -/
theorem Meets.bind {p : Dialogue C R ε β} {f : β → Dialogue C R ε α}
    (h : p.Meets admits fun x => match x with
      | .ok b => (f b).Meets admits post
      | .error e => post (.error e)) : (p.bind f).Meets admits post := by
  induction p with
  | done b => exact h
  | fail e => exact h
  | send c k ih => exact fun r hr => ih r (h r hr)

/-- **Handler rule.**  The body may end with a value that meets the
postcondition, or with an error from which the handler meets it. -/
theorem Meets.tryCatch {p : Dialogue C R ε α} {handler : ε → Dialogue C R ε α}
    (h : p.Meets admits fun x => match x with
      | .ok a => post (.ok a)
      | .error e => (handler e).Meets admits post) : (p.tryCatch handler).Meets admits post := by
  induction p with
  | done a => exact h
  | fail e => exact h
  | send c k ih => exact fun r hr => ih r (h r hr)

/-- A postcondition that every result satisfies. -/
theorem Meets.of_forall (h : ∀ x, post x) (p : Dialogue C R ε α) : p.Meets admits post := by
  induction p with
  | done a => exact h _
  | fail e => exact h _
  | send c k ih => exact fun r _ => ih r

/-- A handler that closes every error closes the body. -/
theorem Meets.of_handler {handler : ε → Dialogue C R ε α} (hok : ∀ a, post (.ok a))
    (hhandler : ∀ e, (handler e).Meets admits post) (p : Dialogue C R ε α) :
    (p.tryCatch handler).Meets admits post := by
  refine Meets.tryCatch (Meets.of_forall (fun x => ?_) p)
  cases x with
  | ok a => exact hok a
  | error e => exact hhandler e

/-- Consequence. -/
theorem Meets.mono {post' : Except ε α → Prop} {p : Dialogue C R ε α}
    (h : p.Meets admits post) (himp : ∀ x, post x → post' x) : p.Meets admits post' := by
  induction p with
  | done a => exact himp _ h
  | fail e => exact himp _ h
  | send c k ih => exact fun r hr => ih r (h r hr)

/-- A specification carries over to the commands that embed it, if what they
are answered with reads back as an admitted reply. -/
theorem Meets.mapCommands {C' : Type} {R' : C' → Type} {embed : C → C'}
    {read : (c : C) → R' (embed c) → R c} {admits' : (c : C') → R' c → Prop}
    {p : Dialogue C R ε α} (hp : p.Meets admits post)
    (hread : ∀ c r, admits' (embed c) r → admits c (read c r)) :
    (p.mapCommands embed read).Meets admits' post := by
  induction p with
  | done a => exact hp
  | fail e => exact hp
  | send c k ih => exact fun r hr => ih _ (hp _ (hread c r hr))

/-- Every execution against a server that gives admitted replies ends with a
result that meets the postcondition. -/
theorem Meets.exec {p : Dialogue C R ε α} (h : p.Meets admits post)
    (hserver : ∀ s c, admits c (server s c).2) (s : σ) : post (p.exec server s).result := by
  induction p generalizing s with
  | done a => exact h
  | fail e => exact h
  | send c k ih => exact ih _ (h _ (hserver s c)) _

end Meets

/-- Whatever the admitted replies, only allowed commands are sent. -/
def Sends (admits : (c : C) → R c → Prop) (allowed : C → Prop) : Dialogue C R ε α → Prop
  | done _ => True
  | fail _ => True
  | send c k => allowed c ∧ ∀ r, admits c r → (k r).Sends admits allowed

section Sends

variable {admits : (c : C) → R c → Prop} {allowed : C → Prop}

@[simp] theorem sends_done (a : α) : (done a : Dialogue C R ε α).Sends admits allowed := trivial

@[simp] theorem sends_fail (e : ε) : (fail e : Dialogue C R ε α).Sends admits allowed := trivial

@[simp] theorem sends_send (c : C) (k : R c → Dialogue C R ε α) :
    (send c k).Sends admits allowed ↔
      allowed c ∧ ∀ r, admits c r → (k r).Sends admits allowed := Iff.rfl

@[simp] theorem sends_ofExcept (x : Except ε α) :
    (ofExcept x : Dialogue C R ε α).Sends admits allowed := by
  cases x <;> trivial

@[simp] theorem sends_request (c : C) (read : R c → Except ε α) :
    (request c read).Sends admits allowed ↔ allowed c := by
  simp only [request, sends_send]
  refine and_iff_left fun r _ => ?_
  cases read r <;> trivial

@[simp] theorem sends_ofExcept_bind (x : Except ε β) (f : β → Dialogue C R ε α) :
    ((ofExcept x).bind f).Sends admits allowed ↔ ∀ b, x = .ok b → (f b).Sends admits allowed := by
  cases x with
  | error e => exact iff_of_true trivial nofun
  | ok b => exact ⟨fun h _ heq => Except.ok.inj heq ▸ h, fun h => h b rfl⟩

/-- **Sequencing rule.**  The second part matters only after a value that the
first part can return. -/
theorem Sends.bind {p : Dialogue C R ε β} {f : β → Dialogue C R ε α}
    (hp : p.Sends admits allowed)
    (hf : p.Meets admits fun x => ∀ b, x = .ok b → (f b).Sends admits allowed) :
    (p.bind f).Sends admits allowed := by
  induction p with
  | done b => exact hf b rfl
  | fail e => trivial
  | send c k ih => exact ⟨hp.1, fun r hr => ih r (hp.2 r hr) (hf r hr)⟩

/-- **Handler rule.** -/
theorem Sends.tryCatch {p : Dialogue C R ε α} {handler : ε → Dialogue C R ε α}
    (hp : p.Sends admits allowed) (hhandler : ∀ e, (handler e).Sends admits allowed) :
    (p.tryCatch handler).Sends admits allowed := by
  induction p with
  | done a => trivial
  | fail e => exact hhandler e
  | send c k ih => exact ⟨hp.1, fun r hr => ih r (hp.2 r hr)⟩

/-- Relabelling the result sends nothing more. -/
theorem Sends.map {p : Dialogue C R ε α} (hp : p.Sends admits allowed) (f : α → β) :
    (p.map f).Sends admits allowed :=
  hp.bind (Meets.of_forall (fun _ _ _ => trivial) p)

/-- More may be allowed. -/
theorem Sends.mono {allowed' : C → Prop} {p : Dialogue C R ε α} (hp : p.Sends admits allowed)
    (himp : ∀ c, allowed c → allowed' c) : p.Sends admits allowed' := by
  induction p with
  | done a => trivial
  | fail e => trivial
  | send c k ih => exact ⟨himp c hp.1, fun r hr => ih r (hp.2 r hr)⟩

/-- Every execution against a server that gives admitted replies sends allowed
commands only. -/
theorem Sends.exec {p : Dialogue C R ε α} (h : p.Sends admits allowed)
    (hserver : ∀ s c, admits c (server s c).2) (s : σ) :
    ∀ c ∈ (p.exec server s).sent, allowed c := by
  induction p generalizing s with
  | done a => simp
  | fail e => simp
  | send c k ih =>
      intro c' hc'
      rcases List.mem_cons.mp hc' with rfl | hc'
      · exact h.1
      · exact ih _ (h.2 _ (hserver s c)) _ c' hc'

/-- Bounds on what is sent carry over to the commands that embed it. -/
theorem Sends.mapCommands {C' : Type} {R' : C' → Type} {embed : C → C'}
    {read : (c : C) → R' (embed c) → R c} {admits' : (c : C') → R' c → Prop}
    {allowed' : C' → Prop} {p : Dialogue C R ε α} (hp : p.Sends admits allowed)
    (hread : ∀ c r, admits' (embed c) r → admits c (read c r))
    (hembed : ∀ c, allowed c → allowed' (embed c)) :
    (p.mapCommands embed read).Sends admits' allowed' := by
  induction p with
  | done a => trivial
  | fail e => trivial
  | send c k ih => exact ⟨hembed c hp.1, fun r hr => ih _ (hp.2 _ (hread c r hr))⟩

end Sends

/-- A result that is not one of the early errors. -/
def Late (early : ε → Prop) (x : Except ε α) : Prop := ∀ e, x = .error e → ¬ early e

/-- An early error comes before any loud command. -/
def FailsEarly (admits : (c : C) → R c → Prop) (loud : C → Prop) (early : ε → Prop) :
    Dialogue C R ε α → Prop
  | done _ => True
  | fail _ => True
  | send c k => ∀ r, admits c r → (k r).FailsEarly admits loud early ∧
      (loud c → (k r).Meets admits (Late early))

section FailsEarly

variable {admits : (c : C) → R c → Prop} {loud : C → Prop} {early : ε → Prop}

@[simp] theorem late_ok (a : α) : Late early (.ok a : Except ε α) := nofun

@[simp] theorem late_error (e : ε) : Late early (.error e : Except ε α) ↔ ¬ early e :=
  ⟨fun h => h e rfl, fun h _ heq => Except.error.inj heq ▸ h⟩

@[simp] theorem failsEarly_ofExcept (x : Except ε α) :
    (ofExcept x : Dialogue C R ε α).FailsEarly admits loud early := by
  cases x <;> trivial

/-- A computation that needs no command may fail in any way. -/
@[simp] theorem failsEarly_ofExcept_bind (x : Except ε β) (f : β → Dialogue C R ε α) :
    ((ofExcept x).bind f).FailsEarly admits loud early ↔
      ∀ b, x = .ok b → (f b).FailsEarly admits loud early := by
  cases x with
  | error e => exact iff_of_true trivial nofun
  | ok b => exact ⟨fun h _ heq => Except.ok.inj heq ▸ h, fun h => h b rfl⟩

/-- A dialogue that never ends with an early error. -/
theorem Meets.failsEarly {p : Dialogue C R ε α} (h : p.Meets admits (Late early)) :
    p.FailsEarly admits loud early := by
  induction p with
  | done a => trivial
  | fail e => trivial
  | send c k ih => exact fun r hr => ⟨ih r (h r hr), fun _ => h r hr⟩

/-- After the first command, no early error. -/
theorem failsEarly_request {c : C} {read : R c → Except ε α}
    (hread : ∀ r, admits c r → Late early (read r)) :
    (request c read).FailsEarly admits loud early :=
  Meets.failsEarly ((meets_request c read).mpr hread)

/-- The same where more is to come behind the command, as long as none of that
fails early. -/
theorem failsEarly_request_bind {c : C} {read : R c → Except ε β} {f : β → Dialogue C R ε α}
    (hread : ∀ r, admits c r → Late early (read r))
    (hf : ∀ b, (f b).Meets admits (Late early)) :
    ((request c read).bind f).FailsEarly admits loud early := by
  refine Meets.failsEarly (Meets.bind ?_)
  rw [meets_request]
  intro r hr
  have hlate := hread r hr
  cases hx : read r with
  | ok b => exact hf b
  | error e =>
      rw [hx] at hlate
      exact (late_error e).mpr ((late_error e).mp hlate)

/-- Relabelling the result does not change when a program fails. -/
theorem FailsEarly.map {p : Dialogue C R ε α} (h : p.FailsEarly admits loud early) (f : α → β) :
    (p.map f).FailsEarly admits loud early := by
  induction p with
  | done a => trivial
  | fail e => trivial
  | send c k ih =>
      refine fun r hr => ⟨ih r (h r hr).1, fun hloud => ?_⟩
      refine ((h r hr).2 hloud).mono (fun x hx => ?_) |>.bind
      cases x with
      | ok a => exact late_ok _
      | error e => exact (late_error e).mpr ((late_error e).mp hx)

/-- Failing early carries over to the commands that embed it, if only loud
commands become loud ones. -/
theorem FailsEarly.mapCommands {C' : Type} {R' : C' → Type} {embed : C → C'}
    {read : (c : C) → R' (embed c) → R c} {admits' : (c : C') → R' c → Prop} {loud' : C' → Prop}
    {p : Dialogue C R ε α} (h : p.FailsEarly admits loud early)
    (hread : ∀ c r, admits' (embed c) r → admits c (read c r))
    (hloud : ∀ c, loud' (embed c) → loud c) :
    (p.mapCommands embed read).FailsEarly admits' loud' early := by
  induction p with
  | done a => trivial
  | fail e => trivial
  | send c k ih =>
      refine fun r hr => ⟨ih _ (h _ (hread c r hr)).1, fun hl => ?_⟩
      exact ((h _ (hread c r hr)).2 (hloud c hl)).mapCommands hread

/-- **Early errors.** An execution that ends with one sent no loud command,
and a server that only loud commands change is as before. -/
theorem FailsEarly.exec {p : Dialogue C R ε α} (h : p.FailsEarly admits loud early)
    {server : σ → (c : C) → σ × R c} (hserver : ∀ s c, admits c (server s c).2)
    (hquiet : ∀ s c, ¬ loud c → (server s c).1 = s) {s : σ} {e : ε}
    (hresult : (p.exec server s).result = .error e) (hearly : early e) :
    (∀ c ∈ (p.exec server s).sent, ¬ loud c) ∧ (p.exec server s).state = s := by
  induction p generalizing s with
  | done a => cases hresult
  | fail e' => exact ⟨by simp, rfl⟩
  | send c k ih =>
      obtain ⟨hrest, hlate⟩ := h _ (hserver s c)
      have hc : ¬ loud c := fun hloud =>
        (hlate hloud).exec server hserver _ e hresult hearly
      obtain ⟨hsent, hstate⟩ := ih _ hrest hresult
      refine ⟨?_, hstate.trans (hquiet s c hc)⟩
      intro c' hc'
      rcases List.mem_cons.mp hc' with rfl | hc'
      · exact hc
      · exact hsent c' hc'

end FailsEarly

end Dialogue
