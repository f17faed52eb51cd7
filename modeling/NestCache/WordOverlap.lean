import Mathlib.Data.List.Infix
import Mathlib.Tactic.Common

/-!
# Overlaps of words

Take words that do not contain a separator `s` and follow each with `s`.  Are
the words that extend `x ++ s` and those that extend `y ++ s` apart when
`x ≠ y`?  Only if `s` does not overlap itself in the wrong way: `Shifts s u`
says that `u ++ s` starts with `s`, and the two regions meet exactly when one
of `x`, `y` is the other followed by such a `u`.

* `region_meets` — a meeting exhibits a shift;
* `ExtendsByShift.prefix_region`, `ExtendsByShift.exists_meeting` — a shift makes the
  regions meet, from either side;
* `not_extendsByShift_singleton` — a one-letter separator has no shift;
* `cut_unique` — a word is cut at its first separator letter in one way.
-/

namespace WordOverlap

variable {α : Type} {s x y z : List α}

/-- `u` is a nonempty shift of `s`: the word `u ++ s` starts with `s`. -/
def Shifts (s u : List α) : Prop := u ≠ [] ∧ s <+: u ++ s

/-- `x` is `y` followed by a shift of the separator. -/
def ExtendsByShift (s x y : List α) : Prop := ∃ u, x = y ++ u ∧ Shifts s u

/-- If a word that extends `x ++ s` also extends `y ++ s`, then one of `x`, `y`
is the other followed by a shift.  Only `y` has to be free of the separator. -/
theorem region_meets (hxy : x ≠ y) (hy : ¬ s <:+: y) (h : y ++ s <+: x ++ s ++ z) :
    ExtendsByShift s x y ∨ ExtendsByShift s y x := by
  have hyw : y <+: x ++ s ++ z := (List.prefix_append y s).trans h
  have hxw : x <+: x ++ s ++ z := by
    rw [List.append_assoc]
    exact List.prefix_append x (s ++ z)
  rcases List.prefix_or_prefix_of_prefix hyw hxw with ⟨u, rfl⟩ | ⟨u, rfl⟩
  · -- `x = y ++ u`: the separator after `y` is read inside `u ++ s`
    left
    have hu : u ≠ [] := by
      rintro rfl
      exact hxy (List.append_nil y)
    have hpre : s <+: (u ++ s) ++ z := by
      rw [List.append_assoc, List.append_assoc, List.prefix_append_right_inj] at h
      rwa [List.append_assoc]
    have hlen : s.length ≤ (u ++ s).length := by simp
    exact ⟨u, rfl, hu, List.prefix_of_prefix_length_le hpre (List.prefix_append _ _) hlen⟩
  · -- `y = x ++ u`: the separator after `x` covers `u`, or `y` would contain it
    right
    have hu : u ≠ [] := by
      rintro rfl
      exact hxy (List.append_nil x).symm
    have hpre : u ++ s <+: s ++ z := by
      rwa [List.append_assoc, List.append_assoc, List.prefix_append_right_inj] at h
    have huw : u <+: s ++ z := (List.prefix_append u s).trans hpre
    rcases List.prefix_or_prefix_of_prefix huw (List.prefix_append s z) with ⟨v, rfl⟩ | hsu
    · refine ⟨u, rfl, hu, ?_⟩
      rw [List.append_assoc u v z, List.prefix_append_right_inj] at hpre
      have hv : v <+: u ++ v :=
        List.prefix_of_prefix_length_le (List.prefix_append v z) hpre (by simp)
      exact (List.prefix_append_right_inj u).mpr hv
    · exact absurd (hsu.isInfix.trans (List.suffix_append x u).isInfix) hy

/-- A shift puts the whole region of the longer word inside the region of the
shorter one. -/
theorem ExtendsByShift.prefix_region (h : ExtendsByShift s x y) (z : List α) :
    y ++ s <+: x ++ s ++ z := by
  obtain ⟨u, rfl, -, hu⟩ := h
  have hpre : y ++ s <+: y ++ (u ++ s) := (List.prefix_append_right_inj y).mpr hu
  rw [List.append_assoc y u s]
  exact hpre.trans (List.prefix_append _ z)

/-- A shift gives the region of the shorter word a nonempty continuation that
enters the region of the longer one. -/
theorem ExtendsByShift.exists_meeting (h : ExtendsByShift s y x) :
    ∃ z, z ≠ [] ∧ y ++ s <+: x ++ s ++ z := by
  obtain ⟨u, rfl, hne, z, hz⟩ := h
  have hlen : z.length = u.length := by
    have := congrArg List.length hz
    simp at this
    omega
  refine ⟨z, ?_, ?_⟩
  · rintro rfl
    exact hne (List.length_eq_zero_iff.mp hlen.symm)
  · rw [List.append_assoc x u s, List.append_assoc x s z, hz]

/-- A one-letter separator has no shift between words that do not
contain it. -/
theorem not_extendsByShift_singleton {c : α} (hx : ¬ [c] <:+: x) :
    ¬ ExtendsByShift [c] x y := by
  rintro ⟨u, rfl, hne, hu⟩
  obtain ⟨d, u, rfl⟩ := List.exists_cons_of_ne_nil hne
  obtain rfl : c = d := by simpa using hu
  exact hx ⟨y, u, by simp⟩

/-- A word is cut at its first letter `c` in one way. Were one of the cuts
further right, its first part would have the letter in it. -/
theorem cut_unique {c : α} {x' y' : List α} (hx : c ∉ x) (hx' : c ∉ x')
    (h : x ++ c :: y = x' ++ c :: y') : x = x' ∧ y = y' := by
  induction x generalizing x' with
  | nil =>
      cases x' with
      | nil => exact ⟨rfl, by simpa using h⟩
      | cons d x' =>
          obtain rfl : c = d := by simpa using congrArg List.head? h
          exact absurd List.mem_cons_self hx'
  | cons a x ih =>
      cases x' with
      | nil =>
          obtain rfl : a = c := by simpa using congrArg List.head? h
          exact absurd List.mem_cons_self hx
      | cons d x' =>
          obtain ⟨rfl, htail⟩ := List.cons.inj h
          obtain ⟨rfl, rfl⟩ := ih (fun hmem => hx (List.mem_cons_of_mem _ hmem))
            (fun hmem => hx' (List.mem_cons_of_mem _ hmem)) htail
          exact ⟨rfl, rfl⟩

end WordOverlap
