import Mathlib.Data.List.Induction
import NestCache.Dialogue
import NestCache.Machine

/-!
# Concurrent calls of one-command programs

Any number of callers talk to one server.  A call is invoked, its command is
served at some later moment and its result is returned later still; meanwhile
other calls go through the same stages in any order and the surroundings of the
server change.  A caller may also give up: its command is answered by a
rejection, stays on its way, and may land at any later moment or never.  A
command reaches the server at most once: a client that sends unanswered commands
again after a reconnect is not meant.

When every program sends at most one command, a history can be explained by
points: each call takes effect as a whole at one moment between its invocation
and its return.

* `Placed` — where the points of a history lie;
* `Explained.step` — a step of the system adds at most one entry that keeps
  the history explained;
* `linearizable` — every run has such points, and the server goes through the
  calls one at a time in their order.
-/

namespace Linearization

/-- How a call or the surroundings act on the server: a call is answered,
rejected without being carried out, or carried out after it was rejected. -/
inductive Effect (O ρ W : Type)
  | answered (i : Nat) (op : O) (result : ρ)
  | rejected (i : Nat) (op : O) (result : ρ)
  | landed (i : Nat) (op : O)
  | world (w : W)

/-- What the callers see. -/
inductive Event (O ρ W : Type)
  | invoked (i : Nat) (op : O)
  | returned (i : Nat) (result : ρ)
  | world (w : W)

/-- An entry of a history with its points. -/
inductive Mark (O ρ W : Type)
  | invoked (i : Nat) (op : O)
  | effect (e : Effect O ρ W)
  | returned (i : Nat) (result : ρ)

/-- The call that acts. -/
def Effect.call? {O ρ W : Type} : Effect O ρ W → Option Nat
  | answered i _ _ | rejected i _ _ | landed i _ => some i
  | world _ => none

namespace Mark

variable {O ρ W : Type}

/-- The call an entry is about. -/
def call? : Mark O ρ W → Option Nat
  | invoked i _ | returned i _ => some i
  | effect e => e.call?

/-- What the callers see of an entry. -/
def event? : Mark O ρ W → Option (Event O ρ W)
  | invoked i op => some (.invoked i op)
  | returned i result => some (.returned i result)
  | effect (.world w) => some (.world w)
  | effect _ => none

@[simp] theorem event?_invoked (i : Nat) (op : O) :
    (invoked i op : Mark O ρ W).event? = some (.invoked i op) := rfl

@[simp] theorem event?_returned (i : Nat) (result : ρ) :
    (returned i result : Mark O ρ W).event? = some (.returned i result) := rfl

@[simp] theorem event?_answered (i : Nat) (op : O) (result : ρ) :
    (effect (.answered i op result) : Mark O ρ W).event? = none := rfl

/-- What the server sees of an entry. -/
def effect? : Mark O ρ W → Option (Effect O ρ W)
  | effect e => some e
  | _ => none

end Mark

/-! ## Where points lie -/

section Placed

variable {O ρ W : Type}

/-- No point of the call yet. -/
def Untouched (i : Nat) (marks : List (Mark O ρ W)) : Prop :=
  ∀ e, .effect e ∈ marks → e.call? ≠ some i

/-- The call was settled at a point: by an answer or by a rejection. -/
def SettledAs (i : Nat) (op : O) (result : ρ) (marks : List (Mark O ρ W)) : Prop :=
  .effect (.answered i op result) ∈ marks ∨ .effect (.rejected i op result) ∈ marks

/-- What has to come before an entry. -/
def Allowed (before : List (Mark O ρ W)) : Mark O ρ W → Prop
  | .invoked i _ => ∀ op, .invoked i op ∉ before
  | .effect (.answered i op _) | .effect (.rejected i op _) =>
      .invoked i op ∈ before ∧ Untouched i before
  | .effect (.landed i op) => (∃ result, .effect (.rejected i op result) ∈ before) ∧
      ∀ op', .effect (.landed i op') ∉ before
  | .effect (.world _) => True
  | .returned i result => ∃ op, SettledAs i op result before

/-- Every entry comes after what it needs. -/
inductive Placed : List (Mark O ρ W) → Prop
  | nil : Placed []
  | snoc {marks : List (Mark O ρ W)} {m : Mark O ρ W} (h : Placed marks) (hm : Allowed marks m) :
      Placed (marks ++ [m])

/-- In a shorter history, too, everything comes after what it needs. -/
theorem Placed.of_append {before after : List (Mark O ρ W)} (h : Placed (before ++ after)) :
    Placed before := by
  induction after using List.reverseRecOn with
  | nil => simpa using h
  | append_singleton after m ih =>
      rw [← List.append_assoc] at h
      generalize hall : before ++ after ++ [m] = all at h
      cases h with
      | nil => simp at hall
      | snoc h _ =>
          obtain ⟨rfl, -⟩ := List.append_inj' hall rfl
          exact ih h

/-- What precedes an entry is what it needs. -/
theorem Placed.allowed {before after : List (Mark O ρ W)} {m : Mark O ρ W}
    (h : Placed (before ++ m :: after)) : Allowed before m := by
  have hwhole : Placed (before ++ [m] ++ after) := by simpa using h
  have hprefix := hwhole.of_append
  generalize hall : before ++ [m] = all at hprefix
  cases hprefix with
  | nil => simp at hall
  | snoc _ hm =>
      obtain ⟨rfl, hm'⟩ := List.append_inj' hall rfl
      obtain rfl : m = _ := by simpa using hm'
      exact hm

end Placed

/-! ## The system -/

section System

variable {C : Type} {R : C → Type} {ε α σ O W J : Type}

/-- The end of a program that sends nothing more. -/
def outcome? : Dialogue C R ε α → Option (Except ε α)
  | .done a => some (.ok a)
  | .fail e => some (.error e)
  | .send _ _ => none

/-- After its first command, if any, the program ends. -/
def AtMostOne : Dialogue C R ε α → Prop
  | .send _ k => ∀ r, (outcome? (k r)).isSome
  | _ => True

/-- A server, the programs of its callers, the rejections that a caller may
read instead of a reply, and how the surroundings change the server. -/
structure System (C : Type) (R : C → Type) (ε α σ O W J : Type) where
  server : σ → (c : C) → σ × R c
  program : O → Dialogue C R ε α
  reject : (c : C) → J → Option (R c)
  world : W → σ → Option σ

/-- The server, how many calls were invoked, what each unreturned call still
has to do, and the commands on their way without a caller. -/
structure State (C : Type) (R : C → Type) (ε α σ : Type) where
  server : σ
  started : Nat := 0
  calls : Nat → Option (Dialogue C R ε α) := fun _ => none
  abandoned : Nat → Option C := fun _ => none

/-- What can happen next. -/
inductive Action (O W J : Type)
  | invoke (op : O)
  | serve (i : Nat)
  | abandon (i : Nat) (rejection : J)
  | land (i : Nat)
  | settle (i : Nat)
  | world (w : W)

variable (sys : System C R ε α σ O W J)

/-- The callers and the server, from a state of the server on.  Each command is
delivered at most once. -/
def machine (s₀ : σ) : Machine (State C R ε α σ) (Action O W J) (Event O (Except ε α) W) where
  init := { server := s₀ }
  step s
    | .invoke op =>
        some ({ s with
          started := s.started + 1
          calls := Function.update s.calls s.started (some (sys.program op)) },
          [.invoked s.started op])
    | .serve i =>
        match s.calls i with
        | some (.send c k) =>
            some ({ s with
              server := (sys.server s.server c).1
              calls := Function.update s.calls i (some (k (sys.server s.server c).2)) }, [])
        | _ => none
    | .abandon i rejection =>
        match s.calls i with
        | some (.send c k) =>
            (sys.reject c rejection).map fun reply =>
              ({ s with
                calls := Function.update s.calls i (some (k reply))
                abandoned := Function.update s.abandoned i (some c) }, [])
        | _ => none
    | .land i =>
        (s.abandoned i).map fun c =>
          ({ s with
            server := (sys.server s.server c).1
            abandoned := Function.update s.abandoned i none }, [])
    | .settle i =>
        ((s.calls i).bind outcome?).map fun result =>
          ({ s with calls := Function.update s.calls i none }, [.returned i result])
    | .world w => (sys.world w s.server).map fun server => ({ s with server }, [.world w])

/-- The server with one call at a time: a call that is answered runs from
beginning to end. -/
inductive Atomic : σ → Effect O (Except ε α) W → σ → Prop
  | answered (s : σ) (i : Nat) (op : O) :
      Atomic s (.answered i op ((sys.program op).exec sys.server s).result)
        ((sys.program op).exec sys.server s).state
  | rejected {s : σ} {i : Nat} {op : O} {c : C} {k : R c → Dialogue C R ε α} {rejection : J}
      {reply : R c} {result : Except ε α} (hprogram : sys.program op = .send c k)
      (hreject : sys.reject c rejection = some reply) (hresult : outcome? (k reply) = some result) :
      Atomic s (.rejected i op result) s
  | landed {s : σ} {i : Nat} {op : O} {c : C} {k : R c → Dialogue C R ε α}
      (hprogram : sys.program op = .send c k) : Atomic s (.landed i op) (sys.server s c).1
  | world {s s' : σ} {w : W} (h : sys.world w s = some s') : Atomic s (.world w) s'

variable {sys}

/-- A program that has ended does nothing to a server. -/
theorem exec_of_outcome {server : σ → (c : C) → σ × R c} {p : Dialogue C R ε α}
    {result : Except ε α} (h : outcome? p = some result) (s : σ) :
    p.exec server s = ⟨s, [], result⟩ := by
  cases p with
  | done a =>
      obtain rfl := Option.some.inj h
      rfl
  | fail e =>
      obtain rfl := Option.some.inj h
      rfl
  | send c k => cases h

/-- Behind its only command such a program has ended, whatever the reply. -/
theorem AtMostOne.outcome {c : C} {k : R c → Dialogue C R ε α}
    (h : AtMostOne (.send c k : Dialogue C R ε α)) (r : R c) :
    ∃ result, outcome? (k r) = some result :=
  Option.isSome_iff_exists.mp (h r)

/-! ## Points of a run -/

/-- What an unreturned call still has to do: everything, or to return. -/
def Waiting (sys : System C R ε α σ O W J) (marks : List (Mark O (Except ε α) W)) (i : Nat)
    (p : Dialogue C R ε α) : Prop :=
  ∃ op, .invoked i op ∈ marks ∧
    ((p = sys.program op ∧ Untouched i marks) ∨
      ∃ result, outcome? p = some result ∧ SettledAs i op result marks)

/-- A command on its way whose call was rejected. -/
def Orphaned (sys : System C R ε α σ O W J) (marks : List (Mark O (Except ε α) W)) (i : Nat)
    (c : C) : Prop :=
  ∃ op k result, sys.program op = .send c k ∧ .effect (.rejected i op result) ∈ marks ∧
    ∀ op', .effect (.landed i op') ∉ marks

/-- The marks explain what was seen and the state reached. -/
structure Explained (sys : System C R ε α σ O W J) (s₀ : σ) (out : List (Event O (Except ε α) W))
    (s : State C R ε α σ) (marks : List (Mark O (Except ε α) W)) : Prop where
  seen : marks.filterMap Mark.event? = out
  runs : Runs (Atomic sys) s₀ (marks.filterMap Mark.effect?) s.server
  placed : Placed marks
  known : ∀ m ∈ marks, ∀ i, m.call? = some i → i < s.started
  waiting : ∀ i p, s.calls i = some p → i < s.started ∧ Waiting sys marks i p
  orphaned : ∀ i c, s.abandoned i = some c → Orphaned sys marks i c

variable {s₀ : σ} {out : List (Event O (Except ε α) W)} {s s' : State C R ε α σ}
  {marks : List (Mark O (Except ε α) W)} {m : Mark O (Except ε α) W}

/-- A call that was settled stays settled. -/
theorem SettledAs.snoc {i : Nat} {op : O} {result : Except ε α} (h : SettledAs i op result marks) :
    SettledAs i op result (marks ++ [m]) :=
  h.imp (List.mem_append_left _) (List.mem_append_left _)

/-- A point of another call changes nothing for this one. -/
theorem Untouched.snoc {i : Nat} (h : Untouched i marks)
    (hm : ∀ e, m = .effect e → e.call? ≠ some i) : Untouched i (marks ++ [m]) := by
  intro e he
  rcases List.mem_append.mp he with he | he
  · exact h e he
  · exact hm e (List.mem_singleton.mp he).symm

/-- A call still waits after a mark that is not its own effect. -/
theorem Waiting.snoc {i : Nat} {p : Dialogue C R ε α} (h : Waiting sys marks i p)
    (hm : ∀ e, m = .effect e → e.call? ≠ some i) : Waiting sys (marks ++ [m]) i p := by
  obtain ⟨op, hinvoked, ⟨hp, huntouched⟩ | ⟨result, hresult, hsettled⟩⟩ := h
  · exact ⟨op, List.mem_append_left _ hinvoked, .inl ⟨hp, huntouched.snoc hm⟩⟩
  · exact ⟨op, List.mem_append_left _ hinvoked, .inr ⟨result, hresult, hsettled.snoc⟩⟩

/-- A command stays on its way after a mark that is not its own landing. -/
theorem Orphaned.snoc {i : Nat} {c : C} (h : Orphaned sys marks i c)
    (hm : ∀ op, m ≠ .effect (.landed i op)) : Orphaned sys (marks ++ [m]) i c := by
  obtain ⟨op, k, result, hprogram, hrejected, hlanded⟩ := h
  refine ⟨op, k, result, hprogram, List.mem_append_left _ hrejected, fun op' hmem => ?_⟩
  rcases List.mem_append.mp hmem with hmem | hmem
  · exact hlanded op' hmem
  · exact hm op' (List.mem_singleton.mp hmem).symm

/-- **One more entry**, after what it needs. Calls and commands it is not
about keep their place. -/
theorem Explained.snoc (h : Explained sys s₀ out s marks) (hallowed : Allowed marks m)
    (hruns : Runs (Atomic sys) s.server m.effect?.toList s'.server)
    (hstarted : s.started ≤ s'.started) (hknown : ∀ i, m.call? = some i → i < s'.started)
    (hwaiting : ∀ i p, s'.calls i = some p →
      (s.calls i = some p ∧ ∀ e, m = .effect e → e.call? ≠ some i) ∨
        i < s'.started ∧ Waiting sys (marks ++ [m]) i p)
    (horphaned : ∀ i c, s'.abandoned i = some c →
      (s.abandoned i = some c ∧ ∀ op, m ≠ .effect (.landed i op)) ∨
        Orphaned sys (marks ++ [m]) i c) :
    Explained sys s₀ (out ++ m.event?.toList) s' (marks ++ [m]) where
  seen := by
    rw [List.filterMap_append, h.seen]
    cases hm : m.event? <;> simp [hm]
  runs := by
    have heffects : ([m].filterMap Mark.effect?) = m.effect?.toList := by
      cases hm : m.effect? <;> simp [hm]
    rw [List.filterMap_append, heffects]
    exact h.runs.append hruns
  placed := .snoc h.placed hallowed
  known m' hm' i hi := by
    rcases List.mem_append.mp hm' with hm' | hm'
    · exact Nat.lt_of_lt_of_le (h.known m' hm' i hi) hstarted
    · obtain rfl := List.mem_singleton.mp hm'
      exact hknown i hi
  waiting i p hp := by
    rcases hwaiting i p hp with ⟨hold, hm⟩ | hnew
    · obtain ⟨hlt, hwait⟩ := h.waiting i p hold
      exact ⟨Nat.lt_of_lt_of_le hlt hstarted, hwait.snoc hm⟩
    · exact hnew
  orphaned i c hc := by
    rcases horphaned i c hc with ⟨hold, hm⟩ | hnew
    · exact (h.orphaned i c hold).snoc hm
    · exact hnew

/-- A call that is not yet settled is settled by a point that changes the
server as its effect says. -/
theorem Explained.settle (h : Explained sys s₀ out s marks) {i : Nat} {op : O}
    {e : Effect O (Except ε α) W} {result : Except ε α} {p : Dialogue C R ε α}
    (he : e = .answered i op result ∨ e = .rejected i op result)
    (hinvoked : .invoked i op ∈ marks) (huntouched : Untouched i marks)
    (hlt : i < s.started) (hatomic : Atomic sys s.server e s'.server)
    (hresult : outcome? p = some result) (hstarted : s'.started = s.started)
    (hcalls : s'.calls = Function.update s.calls i (some p))
    (horphaned : ∀ j c, s'.abandoned j = some c →
      s.abandoned j = some c ∨ Orphaned sys (marks ++ [.effect e]) j c) :
    Explained sys s₀ out s' (marks ++ [.effect e]) := by
  have hcall : e.call? = some i := by rcases he with rfl | rfl <;> rfl
  have hsettled : SettledAs i op result (marks ++ [.effect e]) := by
    rcases he with rfl | rfl
    · exact .inl (by simp)
    · exact .inr (by simp)
  have hallowed : Allowed marks (.effect e) := by
    rcases he with rfl | rfl <;> exact ⟨hinvoked, huntouched⟩
  have hunseen : (Mark.effect e).event? = none := by rcases he with rfl | rfl <;> rfl
  have hunlanded : ∀ j op', (Mark.effect e : Mark O (Except ε α) W) ≠ .effect (.landed j op') := by
    rcases he with rfl | rfl <;> simp
  have hnext : Explained sys s₀ (out ++ (Mark.effect e).event?.toList) s'
      (marks ++ [.effect e]) := by
    refine h.snoc hallowed (.cons hatomic (.nil _)) (Nat.le_of_eq hstarted.symm) ?_ ?_ ?_
    · intro j hj
      obtain rfl : i = j := Option.some.inj (hcall.symm.trans hj)
      exact hstarted ▸ hlt
    · intro j q hq
      rw [hcalls] at hq
      by_cases hji : j = i
      · subst hji
        obtain rfl : p = q := by simpa using hq
        exact .inr ⟨hstarted ▸ hlt, op, List.mem_append_left _ hinvoked,
          .inr ⟨result, hresult, hsettled⟩⟩
      · rw [Function.update_of_ne hji] at hq
        refine .inl ⟨hq, fun e' heq => ?_⟩
        obtain rfl := Mark.effect.inj heq
        rw [hcall]
        simpa using Ne.symm hji
    · intro j c hc
      exact (horphaned j c hc).imp_left fun hold => ⟨hold, hunlanded j⟩
  simpa [hunseen] using hnext

/-- An invocation is marked where it happens; the new call has done nothing.
Its number is the next one, so no mark speaks of it yet. -/
theorem Explained.invoke (h : Explained sys s₀ out s marks) (op : O) :
    Explained sys s₀ (out ++ [.invoked s.started op])
      { s with
        started := s.started + 1
        calls := Function.update s.calls s.started (some (sys.program op)) }
      (marks ++ [.invoked s.started op]) := by
  have hnew : ∀ m ∈ marks, m.call? ≠ some s.started := fun m hm heq =>
    absurd (h.known m hm _ heq) (Nat.lt_irrefl _)
  refine h.snoc (m := .invoked s.started op) (fun op' hmem => hnew _ hmem rfl) (.nil _)
    (Nat.le_succ _) ?_ ?_ fun j c hc => .inl ⟨hc, by simp⟩
  · intro i hi
    obtain rfl := Option.some.inj hi
    exact Nat.lt_succ_self _
  · intro j p hp
    by_cases hj : j = s.started
    · subst hj
      obtain rfl : sys.program op = p := by simpa using hp
      refine .inr ⟨Nat.lt_succ_self _, op, by simp, .inl ⟨rfl, fun e he => ?_⟩⟩
      have hmem : .effect e ∈ marks := by simpa using he
      exact hnew _ hmem
    · exact .inl ⟨by simpa [Function.update_of_ne hj] using hp, by simp⟩

/-- A call that waits for a command is not settled, and its program is
this one. -/
theorem Explained.unsent (h : Explained sys s₀ out s marks) {i : Nat} {c : C}
    {k : R c → Dialogue C R ε α} (hcall : s.calls i = some (.send c k)) :
    i < s.started ∧ ∃ op, sys.program op = .send c k ∧ .invoked i op ∈ marks ∧
      Untouched i marks := by
  obtain ⟨hlt, op, hinvoked, ⟨hp, huntouched⟩ | ⟨result, hresult, -⟩⟩ := h.waiting i _ hcall
  · exact ⟨hlt, op, hp.symm, hinvoked, huntouched⟩
  · cases hresult

/-- **A command that is served** is the point where its call takes effect: the
call is marked as answered, long before it may return. -/
theorem Explained.serve (hone : ∀ op, AtMostOne (sys.program op))
    (h : Explained sys s₀ out s marks) {i : Nat} {c : C} {k : R c → Dialogue C R ε α}
    (hcall : s.calls i = some (.send c k)) :
    ∃ marks', Explained sys s₀ out
      { s with
        server := (sys.server s.server c).1
        calls := Function.update s.calls i (some (k (sys.server s.server c).2)) } marks' := by
  obtain ⟨hlt, op, hprogram, hinvoked, huntouched⟩ := h.unsent hcall
  obtain ⟨result, hresult⟩ := (hprogram ▸ hone op).outcome (sys.server s.server c).2
  have hexec : (sys.program op).exec sys.server s.server =
      ⟨(sys.server s.server c).1, [c], result⟩ := by
    rw [hprogram, Dialogue.exec_send, exec_of_outcome hresult]
    rfl
  have hatomic : Atomic sys s.server _ _ := .answered s.server i op
  rw [hexec] at hatomic
  exact ⟨_, h.settle (.inl rfl) hinvoked huntouched hlt hatomic hresult rfl rfl
    fun _ _ hc => .inl hc⟩

/-- A call that reads a rejection is marked as rejected; its command may still
reach the server, so it is orphaned. -/
theorem Explained.abandon (hone : ∀ op, AtMostOne (sys.program op))
    (h : Explained sys s₀ out s marks) {i : Nat} {c : C} {k : R c → Dialogue C R ε α}
    {rejection : J} {reply : R c} (hcall : s.calls i = some (.send c k))
    (hreject : sys.reject c rejection = some reply) :
    ∃ marks', Explained sys s₀ out
      { s with
        calls := Function.update s.calls i (some (k reply))
        abandoned := Function.update s.abandoned i (some c) } marks' := by
  obtain ⟨hlt, op, hprogram, hinvoked, huntouched⟩ := h.unsent hcall
  obtain ⟨result, hresult⟩ := (hprogram ▸ hone op).outcome reply
  refine ⟨_, h.settle (.inr rfl) hinvoked huntouched hlt
    (.rejected hprogram hreject hresult) hresult rfl rfl fun j c' hc => ?_⟩
  by_cases hj : j = i
  · subst hj
    obtain rfl : c = c' := by simpa using hc
    refine .inr ⟨op, k, result, hprogram, by simp, fun op' hmem => ?_⟩
    have hmem' : .effect (.landed j op') ∈ marks := by simpa using hmem
    exact huntouched _ hmem' rfl
  · exact .inl (by simpa [Function.update_of_ne hj] using hc)

/-- An orphaned command that reaches the server after all is marked as landed,
once: it is taken from those on their way. -/
theorem Explained.land (h : Explained sys s₀ out s marks) {i : Nat} {c : C}
    (habandoned : s.abandoned i = some c) :
    ∃ marks', Explained sys s₀ out
      { s with
        server := (sys.server s.server c).1
        abandoned := Function.update s.abandoned i none } marks' := by
  obtain ⟨op, k, result, hprogram, hrejected, hlanded⟩ := h.orphaned i c habandoned
  refine ⟨marks ++ [.effect (.landed i op)], ?_⟩
  rw [← List.append_nil out]
  refine h.snoc (m := .effect (.landed i op)) ⟨⟨result, hrejected⟩, hlanded⟩
    (.cons (.landed hprogram) (.nil _)) (Nat.le_refl _) (fun j hj => h.known _ hrejected j hj) ?_ ?_
  · intro j p hp
    by_cases hj : j = i
    · subst hj
      obtain ⟨hlt, op', hinvoked, ⟨-, huntouched⟩ | ⟨result', hresult, hsettled⟩⟩ :=
        h.waiting j p hp
      · exact absurd rfl (huntouched _ hrejected)
      · exact .inr ⟨hlt, op', List.mem_append_left _ hinvoked, .inr ⟨result', hresult, hsettled.snoc⟩⟩
    · refine .inl ⟨hp, fun e heq => ?_⟩
      obtain rfl := Mark.effect.inj heq
      simpa [Effect.call?] using Ne.symm hj
  · intro j c' hc
    by_cases hj : j = i
    · subst hj
      simp at hc
    · refine .inl ⟨by simpa [Function.update_of_ne hj] using hc, fun op' heq => ?_⟩
      simp only [Mark.effect.injEq, Effect.landed.injEq] at heq
      exact hj heq.1.symm

/-- A settled call returns its result. Its point is among the marks already, so
the return adds none to what happened on the server. -/
theorem Explained.giveBack (h : Explained sys s₀ out s marks) {i : Nat} {op : O}
    {result : Except ε α} (hsettled : SettledAs i op result marks) :
    Explained sys s₀ (out ++ [.returned i result])
      { s with calls := Function.update s.calls i none } (marks ++ [.returned i result]) := by
  have hlt : i < s.started := by
    rcases hsettled with hmem | hmem <;> exact h.known _ hmem i rfl
  refine h.snoc (m := .returned i result) ⟨op, hsettled⟩ (.nil _) (Nat.le_refl _) ?_ ?_
    fun j c hc => .inl ⟨hc, by simp⟩
  · intro j hj
    obtain rfl := Option.some.inj hj
    exact hlt
  · intro j p hp
    by_cases hj : j = i
    · subst hj
      simp at hp
    · exact .inl ⟨by simpa [Function.update_of_ne hj] using hp, by simp⟩

/-- A call whose program sends nothing takes effect when it returns. Its point
and its return stand next to each other, and the server is not asked. -/
theorem Explained.return (h : Explained sys s₀ out s marks) {i : Nat} {p : Dialogue C R ε α}
    {result : Except ε α} (hcall : s.calls i = some p) (hresult : outcome? p = some result) :
    ∃ marks', Explained sys s₀ (out ++ [.returned i result])
      { s with calls := Function.update s.calls i none } marks' := by
  obtain ⟨hlt, op, hinvoked, ⟨hp, huntouched⟩ | ⟨result', hresult', hsettled⟩⟩ :=
    h.waiting i p hcall
  · have hexec : (sys.program op).exec sys.server s.server = ⟨s.server, [], result⟩ :=
      exec_of_outcome (hp ▸ hresult) s.server
    have hatomic : Atomic sys s.server _ _ := .answered s.server i op
    rw [hexec] at hatomic
    have hcalls : s.calls = Function.update s.calls i (some p) := by
      rw [← hcall, Function.update_eq_self]
    have hpoint := h.settle (.inl rfl) hinvoked huntouched hlt hatomic hresult rfl hcalls
      fun _ _ hc => .inl hc
    have hsettled : SettledAs i op result (marks ++ [.effect (.answered i op result)]) :=
      .inl (by simp)
    exact ⟨_, hpoint.giveBack hsettled⟩
  · obtain rfl := Option.some.inj (hresult'.symm.trans hresult)
    exact ⟨_, h.giveBack hsettled⟩

/-- What others do to the server is marked where it happens. -/
theorem Explained.surroundings (h : Explained sys s₀ out s marks) {w : W} {server : σ}
    (hworld : sys.world w s.server = some server) :
    Explained sys s₀ (out ++ [.world w]) { s with server } (marks ++ [.effect (.world w)]) :=
  h.snoc (m := .effect (.world w)) trivial (.cons (.world hworld) (.nil _)) (Nat.le_refl _)
    (by simp [Mark.call?, Effect.call?])
    (fun i p hp => .inl ⟨hp, by simp [Effect.call?]⟩) fun i c hc => .inl ⟨hc, by simp⟩

/-- **One step** extends the explanation. The cases are the actions, each with
its own lemma. -/
theorem Explained.step (hone : ∀ op, AtMostOne (sys.program op))
    (h : Explained sys s₀ out s marks) {a : Action O W J}
    {more : List (Event O (Except ε α) W)}
    (hstep : (machine sys s₀).step s a = some (s', more)) :
    ∃ marks', Explained sys s₀ (out ++ more) s' marks' := by
  cases a with
  | invoke op =>
      obtain ⟨rfl, rfl⟩ := Prod.mk.inj (Option.some.inj hstep)
      exact ⟨_, h.invoke op⟩
  | serve i =>
      simp only [machine] at hstep
      split at hstep
      · rename_i c k hcall
        obtain ⟨rfl, rfl⟩ := Prod.mk.inj (Option.some.inj hstep)
        simpa using h.serve hone hcall
      · cases hstep
  | abandon i rejection =>
      simp only [machine] at hstep
      split at hstep
      · rename_i c k hcall
        obtain ⟨reply, hreject, heq⟩ := Option.map_eq_some_iff.mp hstep
        obtain ⟨rfl, rfl⟩ := Prod.mk.inj heq
        simpa using h.abandon hone hcall hreject
      · cases hstep
  | land i =>
      obtain ⟨c, habandoned, heq⟩ := Option.map_eq_some_iff.mp hstep
      obtain ⟨rfl, rfl⟩ := Prod.mk.inj heq
      simpa using h.land habandoned
  | settle i =>
      obtain ⟨result, hbind, heq⟩ := Option.map_eq_some_iff.mp hstep
      obtain ⟨p, hcall, hresult⟩ := Option.bind_eq_some_iff.mp hbind
      obtain ⟨rfl, rfl⟩ := Prod.mk.inj heq
      exact h.return hcall hresult
  | world w =>
      obtain ⟨server, hworld, heq⟩ := Option.map_eq_some_iff.mp hstep
      obtain ⟨rfl, rfl⟩ := Prod.mk.inj heq
      exact ⟨_, h.surroundings hworld⟩

/-- **Linearizability.**  Every run of programs with at most one command has
points: the callers see the marks without them, and from the initial state the
server goes through them one at a time to the state it is in. -/
theorem linearizable (hone : ∀ op, AtMostOne (sys.program op)) {actions : List (Action O W J)}
    (hrun : (machine sys s₀).run actions = some (s, out)) :
    ∃ marks, marks.filterMap Mark.event? = out ∧ Placed marks ∧
      Runs (Atomic sys) s₀ (marks.filterMap Mark.effect?) s.server := by
  have hinit : Explained sys s₀ [] { server := s₀ } [] := by
    refine ⟨rfl, .nil _, .nil, ?_, ?_, ?_⟩ <;> simp
  obtain ⟨marks, h⟩ := (machine sys s₀).run_induction
    (I := fun _ out s => ∃ marks, Explained sys s₀ out s marks) ⟨[], hinit⟩
    (fun _ _ _ _ _ _ ⟨_, h⟩ hstep => h.step hone hstep) hrun
  exact ⟨marks, h.seen, h.placed, h.runs⟩

end System

end Linearization
