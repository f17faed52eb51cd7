import Mathlib.Data.List.Nodup
import NestCache.Linearization

/-!
# Points seen from the callers

A cut of what the callers see is a cut of a history with its points, and a call
that returned was settled between the two entries that the callers see of it.

* `exists_cut` — the entry behind an event;
* `Placed.exists_point` — a call that returned was settled in between;
* `Placed.answered_alone` — no other point belongs to an answered call;
* `Placed.carriedOut_nodup` — no call is carried out twice.
-/

namespace Linearization

namespace Effect

variable {O ρ W : Type}

/-- The call that acts, and its operation. -/
def acts? : Effect O ρ W → Option (Nat × O)
  | answered i op _ | rejected i op _ | landed i op => some (i, op)
  | world _ => none

/-- The call that the server carried out, and its operation. -/
def carriedOut? : Effect O ρ W → Option (Nat × O)
  | answered i op _ | landed i op => some (i, op)
  | _ => none

/-- What the surroundings did. -/
def world? : Effect O ρ W → Option W
  | world w => some w
  | _ => none

/-- A call that was carried out is one that acted. -/
theorem acts_of_carriedOut {e : Effect O ρ W} {call : Nat × O}
    (h : e.carriedOut? = some call) : e.acts? = some call := by
  cases e with
  | answered i op r | landed i op => exact h
  | _ => cases h

/-- An effect in which a call acts is an effect of that call. -/
theorem call_of_acts {e : Effect O ρ W} {i : Nat} {op : O} (h : e.acts? = some (i, op)) :
    e.call? = some i := by
  cases e with
  | world w => cases h
  | _ =>
      obtain ⟨rfl, -⟩ := Prod.mk.inj (Option.some.inj h)
      rfl

end Effect

/-- What the surroundings did. -/
def Event.world? {O ρ W : Type} : Event O ρ W → Option W
  | world w => some w
  | _ => none

variable {O ρ W : Type} {marks before after between : List (Mark O ρ W)} {i : Nat} {op op' : O}
  {result : ρ} {e e' : Effect O ρ W}

/-! ## Cuts -/

/-- **The entry behind an event.** -/
theorem exists_cut {a b : List (Event O ρ W)} {x : Event O ρ W}
    (h : marks.filterMap Mark.event? = a ++ x :: b) :
    ∃ before m after, marks = before ++ m :: after ∧ before.filterMap Mark.event? = a ∧
      m.event? = some x ∧ after.filterMap Mark.event? = b := by
  obtain ⟨first, rest, rfl, rfl, hrest⟩ := List.filterMap_eq_append_iff.mp h
  obtain ⟨unseen, m, after, rfl, hunseen, hm, rfl⟩ := List.filterMap_eq_cons_iff.mp hrest
  refine ⟨first ++ unseen, m, after, by simp, ?_, hm, rfl⟩
  rw [List.filterMap_append, List.filterMap_eq_nil_iff.mpr hunseen, List.append_nil]

/-- Two entries of a history come one after the other. Where a list is cut at
two different entries, one of the cuts lies behind the other. -/
theorem two_cuts {α : Type} {x y x' y' : List α} {m m' : α} (h : x ++ m :: y = x' ++ m' :: y')
    (hne : m ≠ m') : (∃ z, x' = x ++ m :: z ∧ y = z ++ m' :: y') ∨
      ∃ z, x = x' ++ m' :: z ∧ y' = z ++ m :: y := by
  rcases List.append_eq_append_iff.mp h with ⟨z, rfl, hz⟩ | ⟨z, rfl, hz⟩
  · cases z with
    | nil => exact absurd (List.cons.inj hz).1 hne
    | cons m'' z =>
        obtain ⟨rfl, rfl⟩ := List.cons.inj hz
        exact .inl ⟨z, rfl, rfl⟩
  · cases z with
    | nil => exact absurd (List.cons.inj hz).1.symm hne
    | cons m'' z =>
        obtain ⟨rfl, rfl⟩ := List.cons.inj hz
        exact .inr ⟨z, rfl, rfl⟩

/-- Only the mark of an invocation shows as one. -/
theorem invoked_of_event {m : Mark O ρ W} (h : m.event? = some (.invoked i op)) :
    m = .invoked i op := by
  cases m with
  | invoked j op' =>
      obtain ⟨rfl, rfl⟩ := Event.invoked.inj (Option.some.inj h)
      rfl
  | effect e => cases e <;> cases h
  | returned j r => cases h

/-- Only the mark of a return shows as one. -/
theorem returned_of_event {m : Mark O ρ W} (h : m.event? = some (.returned i result)) :
    m = .returned i result := by
  cases m with
  | returned j r =>
      obtain ⟨rfl, rfl⟩ := Event.returned.inj (Option.some.inj h)
      rfl
  | effect e => cases e <;> cases h
  | invoked j op' => cases h

/-- What is seen of an invocation. -/
theorem mem_invoked : .invoked i op ∈ marks.filterMap Mark.event? ↔ .invoked i op ∈ marks := by
  constructor
  · intro h
    obtain ⟨m, hm, hevent⟩ := List.mem_filterMap.mp h
    exact invoked_of_event hevent ▸ hm
  · exact fun h => List.mem_filterMap.mpr ⟨_, h, rfl⟩

/-- What is seen of a return. -/
theorem mem_returned :
    .returned i result ∈ marks.filterMap Mark.event? ↔ .returned i result ∈ marks := by
  constructor
  · intro h
    obtain ⟨m, hm, hevent⟩ := List.mem_filterMap.mp h
    exact returned_of_event hevent ▸ hm
  · exact fun h => List.mem_filterMap.mpr ⟨_, h, rfl⟩

/-- The effects of a history are those that are marked in it. -/
theorem mem_effect : e ∈ marks.filterMap Mark.effect? ↔ .effect e ∈ marks := by
  constructor
  · intro h
    obtain ⟨m, hm, heffect⟩ := List.mem_filterMap.mp h
    cases m with
    | effect e' => exact Option.some.inj heffect ▸ hm
    | _ => cases heffect
  · exact fun h => List.mem_filterMap.mpr ⟨_, h, rfl⟩

/-- The callers see all that the surroundings do. -/
theorem worlds_seen (marks : List (Mark O ρ W)) :
    (marks.filterMap Mark.effect?).filterMap Effect.world? =
      (marks.filterMap Mark.event?).filterMap Event.world? := by
  rw [List.filterMap_filterMap, List.filterMap_filterMap]
  refine congrArg (List.filterMap · marks) (funext fun m => ?_)
  cases m with
  | effect e => cases e <;> rfl
  | _ => rfl

/-! ## Order -/

/-- A call that acts was invoked. Each way to act has the invocation among what
has to come before it; a landing has it through its rejection. -/
theorem Placed.invoked_of_acts (h : Placed marks) (he : .effect e ∈ marks)
    (hacts : e.acts? = some (i, op)) : .invoked i op ∈ marks := by
  obtain ⟨before, after, rfl⟩ := List.append_of_mem he
  cases e with
  | answered j op' r | rejected j op' r =>
      obtain ⟨rfl, rfl⟩ := Prod.mk.inj (Option.some.inj hacts)
      exact List.mem_append_left _ h.allowed.1
  | landed j op' =>
      obtain ⟨rfl, rfl⟩ := Prod.mk.inj (Option.some.inj hacts)
      obtain ⟨⟨r, hrejected⟩, -⟩ := h.allowed
      obtain ⟨first, rest, rfl⟩ := List.append_of_mem hrejected
      have hfirst : Placed (first ++ .effect (.rejected j op' r) :: rest) := h.of_append
      simp [hfirst.allowed.1]
  | world w => cases hacts

/-- No point of a call precedes its invocation. -/
theorem Placed.untouched_before (h : Placed (before ++ .invoked i op :: after)) :
    Untouched i before := by
  intro e he hcall
  cases e with
  | answered j op' r | rejected j op' r | landed j op' =>
      obtain rfl : j = i := Option.some.inj hcall
      exact h.allowed op' (h.of_append.invoked_of_acts he rfl)
  | world w => cases hcall

/-- A call is invoked once. -/
theorem Placed.invoked_once (h : Placed (before ++ .invoked i op :: after)) :
    .invoked i op' ∉ before ∧ .invoked i op' ∉ after := by
  refine ⟨h.allowed op', fun hafter => ?_⟩
  obtain ⟨first, last, rfl⟩ := List.append_of_mem hafter
  rw [← List.cons_append, ← List.append_assoc] at h
  exact h.allowed op (by simp)

/-- A call is invoked with one operation only. -/
theorem Placed.invoked_inj (h : Placed marks) (hop : .invoked i op ∈ marks)
    (hop' : .invoked i op' ∈ marks) : op = op' := by
  obtain ⟨before, after, rfl⟩ := List.append_of_mem hop
  rcases List.mem_append.mp hop' with hbefore | hafter
  · exact absurd hbefore h.invoked_once.1
  rcases List.mem_cons.mp hafter with heq | hafter
  · exact (Mark.invoked.inj heq).2.symm
  · exact absurd hafter h.invoked_once.2

/-- **No other point belongs to an answered call.** Before the answer there is
none, because an answer needs a call that nothing was done for; behind it none
is allowed. -/
theorem Placed.answered_alone
    (h : Placed (before ++ .effect (.answered i op result) :: after)) :
    Untouched i before ∧ Untouched i after := by
  refine ⟨h.allowed.2, fun e he hcall => ?_⟩
  obtain ⟨first, rest, rfl⟩ := List.append_of_mem he
  rw [← List.cons_append, ← List.append_assoc] at h
  have hmem : .effect (.answered i op result) ∈
      before ++ .effect (.answered i op result) :: first := by simp
  cases e with
  | answered j op' r | rejected j op' r =>
      obtain rfl : j = i := Option.some.inj hcall
      exact h.allowed.2 _ hmem rfl
  | landed j op' =>
      obtain rfl : j = i := Option.some.inj hcall
      obtain ⟨⟨r, hrejected⟩, -⟩ := h.allowed
      have hfirst := h.of_append
      rcases List.mem_append.mp hrejected with hin | hin
      · exact hfirst.allowed.2 _ hin rfl
      · obtain ⟨u, v, rfl⟩ := List.append_of_mem (List.mem_of_ne_of_mem (by simp) hin)
        rw [← List.cons_append, ← List.append_assoc] at hfirst
        exact hfirst.allowed.2 (.answered j op result) (by simp) rfl
  | world w => cases hcall

/-- **A call that returned was settled in between**, by an answer or a
rejection that carries its result. -/
theorem Placed.exists_point
    (h : Placed (before ++ .invoked i op :: between ++ .returned i result :: after)) :
    ∃ e first rest, between = first ++ .effect e :: rest ∧
      (e = .answered i op result ∨ e = .rejected i op result) := by
  obtain ⟨op', hsettled⟩ := h.allowed
  have hearly := h.of_append
  have huntouched := hearly.untouched_before
  obtain ⟨e, he, hmem⟩ : ∃ e, (e = .answered i op' result ∨ e = .rejected i op' result) ∧
      .effect e ∈ before ++ .invoked i op :: between := by
    rcases hsettled with hmem | hmem
    · exact ⟨_, .inl rfl, hmem⟩
    · exact ⟨_, .inr rfl, hmem⟩
  have hacts : e.acts? = some (i, op') := by rcases he with rfl | rfl <;> rfl
  have hbetween : .effect e ∈ between := by
    rcases List.mem_append.mp hmem with hin | hin
    · exact absurd (Effect.call_of_acts hacts) (huntouched e hin)
    · exact List.mem_of_ne_of_mem (by simp) hin
  obtain rfl : op = op' := hearly.invoked_inj (by simp) (hearly.invoked_of_acts hmem hacts)
  obtain ⟨first, rest, rfl⟩ := List.append_of_mem hbetween
  exact ⟨e, first, rest, rfl, he⟩

/-- A call that is carried out next was not carried out. An answer needs an
untouched call, and a landing one that was rejected and has not landed. -/
theorem Placed.not_carriedOut (h : Placed marks) (hallowed : Allowed marks (.effect e))
    (hcarried : e.carriedOut? = some (i, op)) (he' : .effect e' ∈ marks) :
    e'.carriedOut? ≠ some (i, op') := by
  intro hcarried'
  have hcall := Effect.call_of_acts (Effect.acts_of_carriedOut hcarried')
  cases e with
  | answered j op r =>
      obtain ⟨rfl, rfl⟩ := Prod.mk.inj (Option.some.inj hcarried)
      exact hallowed.2 _ he' hcall
  | landed j op =>
      obtain ⟨rfl, rfl⟩ := Prod.mk.inj (Option.some.inj hcarried)
      obtain ⟨⟨r, hrejected⟩, hlanded⟩ := hallowed
      cases e' with
      | answered k op' r' =>
          obtain rfl : k = j := Option.some.inj hcall
          obtain ⟨first, rest, rfl⟩ := List.append_of_mem he'
          rcases List.mem_append.mp hrejected with hin | hin
          · exact h.answered_alone.1 _ hin rfl
          · exact h.answered_alone.2 _ (List.mem_of_ne_of_mem (by simp) hin) rfl
      | landed k op' =>
          obtain rfl : k = j := Option.some.inj hcall
          exact hlanded op' he'
      | _ => cases hcarried'
  | _ => cases hcarried

/-- The calls that were carried out, in their order. -/
def carriedOut (effects : List (Effect O ρ W)) : List (Nat × O) :=
  effects.filterMap Effect.carriedOut?

/-- A call is among those carried out exactly if an effect that is marked
carried it out. -/
theorem mem_carriedOut {call : O} : (i, call) ∈ carriedOut (marks.filterMap Mark.effect?) ↔
    ∃ e, .effect e ∈ marks ∧ e.carriedOut? = some (i, call) := by
  simp only [carriedOut, List.mem_filterMap (l := marks.filterMap _), mem_effect]

/-- **No call is carried out twice.** The induction is on the history, with the
lemma above for its last entry. -/
theorem Placed.carriedOut_nodup (h : Placed marks) :
    ((carriedOut (marks.filterMap Mark.effect?)).map Prod.fst).Nodup := by
  unfold carriedOut
  induction h with
  | nil => exact List.nodup_nil
  | @snoc marks m h hm ih =>
      rw [List.filterMap_append, List.filterMap_append, List.map_append]
      cases m with
      | effect e =>
          cases hcarried : e.carriedOut? with
          | none => simpa [Mark.effect?, hcarried] using ih
          | some call =>
              have hlast : (([.effect e].filterMap Mark.effect?).filterMap
                  Effect.carriedOut?).map Prod.fst = [call.1] := by
                simp [Mark.effect?, hcarried]
              rw [hlast, List.nodup_append_comm, List.singleton_append, List.nodup_cons]
              refine ⟨fun hmem => ?_, ih⟩
              obtain ⟨⟨i, op'⟩, hcall, hi⟩ := List.mem_map.mp hmem
              obtain rfl : i = call.1 := hi
              obtain ⟨e', he', hcarried'⟩ := List.mem_filterMap.mp hcall
              exact h.not_carriedOut hm hcarried (mem_effect.mp he') hcarried'
      | invoked i op | returned i result => exact (List.append_nil _).symm ▸ ih

end Linearization
