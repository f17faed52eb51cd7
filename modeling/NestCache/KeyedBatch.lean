import Mathlib.Data.Finset.Card
import Mathlib.Data.Finset.Dedup
import Mathlib.Data.Finset.Image

/-!
# Batches on a keyed map

A map from keys to optional values, written or emptied at several keys at once.
Keys may be given more than once: a write keeps the last value given for a key,
and a removal counts a key once.  Both are what one key after the other gives
(`writeAll_cons`, `dropAll_cons`, `countHeld_cons`).
-/

namespace KeyedBatch

variable {K V : Type} [DecidableEq K]

/-- Every key given takes the last value given for it. -/
def writeAll (entries : List (K × V)) (m : K → Option V) : K → Option V :=
  fun key => (entries.reverse.lookup key).or (m key)

/-- Every key given holds nothing. -/
def dropAll (keys : List K) (m : K → Option V) : K → Option V :=
  fun key => if key ∈ keys then none else m key

/-- How many of the keys given hold something that counts. -/
def countHeld (counts : Option V → Bool) (keys : List K) (m : K → Option V) : Nat :=
  (keys.toFinset.filter fun key => counts (m key) = true).card

@[simp] theorem writeAll_nil (m : K → Option V) : writeAll [] m = m := rfl

@[simp] theorem dropAll_nil (m : K → Option V) : dropAll [] m = m := by
  funext key
  simp [dropAll]

@[simp] theorem countHeld_nil (counts : Option V → Bool) (m : K → Option V) :
    countHeld counts [] m = 0 := rfl

/-- Entries leave the other keys as they are. -/
theorem writeAll_of_notMem {entries : List (K × V)} {key : K} (h : key ∉ entries.map Prod.fst)
    (m : K → Option V) : writeAll entries m key = m key := by
  have hnone : entries.reverse.lookup key = none := by
    refine List.lookup_eq_none_iff.mpr fun entry hentry => ?_
    have hne : key ≠ entry.1 := by
      rintro rfl
      exact h (List.mem_map_of_mem (List.mem_reverse.mp hentry))
    simpa using hne
  simp [writeAll, hnone]

/-- What a write into the empty map holds is the last value given. That is the
last entry of the key; what is in front of it is overwritten. -/
theorem writeAll_eq_some_iff {entries : List (K × V)} {key : K} {value : V} :
    writeAll entries (fun _ => none) key = some value ↔
      ∃ before after, entries = before ++ (key, value) :: after ∧ key ∉ after.map Prod.fst := by
  simp only [writeAll, Option.or_none, List.lookup_eq_some_iff]
  constructor
  · rintro ⟨after, before, heq, hafter⟩
    refine ⟨before.reverse, after.reverse, ?_, fun hmem => ?_⟩
    · have hreverse := congrArg List.reverse heq
      simpa using hreverse
    · obtain ⟨entry, hentry, rfl⟩ := List.mem_map.mp hmem
      simpa using hafter entry (List.mem_reverse.mp hentry)
  · rintro ⟨before, after, rfl, hafter⟩
    refine ⟨after.reverse, before.reverse, by simp, fun entry hentry => ?_⟩
    have hne : key ≠ entry.1 := by
      rintro rfl
      exact hafter (List.mem_map_of_mem (List.mem_reverse.mp hentry))
    simpa using hne

/-- A write at a first key, then at the others. -/
theorem writeAll_cons (key : K) (value : V) (rest : List (K × V)) (m : K → Option V) :
    writeAll ((key, value) :: rest) m = writeAll rest (Function.update m key (some value)) := by
  funext other
  simp only [writeAll, List.reverse_cons, List.lookup_append]
  cases rest.reverse.lookup other with
  | some later => rfl
  | none =>
      by_cases h : other = key
      · subst h
        simp
      · have hbeq : (other == key) = false := by simpa using h
        simp [List.lookup_cons, hbeq, Function.update_of_ne h]

/-- Entries of other keys do not matter for a key. So an entry that is
overwritten can be left out. -/
theorem writeAll_filter_ne {key other : K} (h : other ≠ key) (entries : List (K × V))
    (m : K → Option V) :
    writeAll (entries.filter fun entry => entry.1 ≠ key) m other = writeAll entries m other := by
  induction entries generalizing m with
  | nil => rfl
  | cons entry rest ih =>
      obtain ⟨first, value⟩ := entry
      by_cases hfirst : first = key
      · subst hfirst
        have hskip : writeAll rest (Function.update m first (some value)) other =
            writeAll rest m other := by
          simp [writeAll, Function.update_of_ne h]
        rw [writeAll_cons, hskip, ← ih m, List.filter_cons_of_neg (by simp)]
      · rw [List.filter_cons_of_pos (by simpa using hfirst), writeAll_cons, writeAll_cons, ih]

/-- Where every entry of a key has one value, the key takes it. -/
theorem writeAll_of_const {entries : List (K × V)} {key : K} {value : V}
    (hkey : key ∈ entries.map Prod.fst) (hvalue : ∀ entry ∈ entries, entry.1 = key → entry.2 = value)
    (m : K → Option V) : writeAll entries m key = some value := by
  induction entries generalizing m with
  | nil => cases hkey
  | cons entry rest ih =>
      have hrest := fun other hother => hvalue other (List.mem_cons_of_mem entry hother)
      rw [writeAll_cons]
      by_cases hmem : key ∈ rest.map Prod.fst
      · exact ih hmem hrest _
      · obtain rfl : key = entry.1 := (List.mem_cons.mp hkey).resolve_right hmem
        rw [writeAll_of_notMem hmem, Function.update_self, hvalue entry List.mem_cons_self rfl]

/-- A removal of a first key, then of the others. -/
theorem dropAll_cons (key : K) (rest : List K) (m : K → Option V) :
    dropAll (key :: rest) m = dropAll rest (dropAll [key] m) := by
  funext other
  by_cases hrest : other ∈ rest <;> simp [dropAll, hrest]

/-- A key that was dropped is not counted again. This is what makes the count
of a batch the sum of single counts, also where a key is repeated. -/
theorem countHeld_cons {counts : Option V → Bool} (hnone : counts none = false) (key : K)
    (rest : List K) (m : K → Option V) :
    countHeld counts (key :: rest) m =
      countHeld counts [key] m + countHeld counts rest (dropAll [key] m) := by
  have hsplit : ((key :: rest).toFinset.filter fun k => counts (m k) = true) =
      ([key].toFinset.filter fun k => counts (m k) = true) ∪
        (rest.toFinset.filter fun k => counts (dropAll [key] m k) = true) := by
    ext k
    by_cases hk : k = key <;> simp [dropAll, hk, hnone]
  have hdisjoint : Disjoint ([key].toFinset.filter fun k => counts (m k) = true)
      (rest.toFinset.filter fun k => counts (dropAll [key] m k) = true) := by
    refine Finset.disjoint_left.mpr fun k hk hrest => ?_
    obtain rfl : k = key := by simpa using (Finset.mem_filter.mp hk).1
    simp [dropAll, hnone] at hrest
  simp only [countHeld]
  rw [hsplit, Finset.card_union_of_disjoint hdisjoint]

/-! ## Renamed keys -/

section Renamed

variable {L : Type} [DecidableEq L] {name : L → K} (hname : Function.Injective name)

include hname

/-- A batch of named keys writes what it writes under their names. -/
theorem writeAll_comp (entries : List (L × V)) (m : K → Option V) :
    writeAll (entries.map fun entry => (name entry.1, entry.2)) m ∘ name =
      writeAll entries (m ∘ name) := by
  induction entries generalizing m with
  | nil => rfl
  | cons entry rest ih =>
      obtain ⟨key, value⟩ := entry
      rw [List.map_cons, writeAll_cons, writeAll_cons, ih,
        Function.update_comp_eq_of_injective m hname]

/-- Keys are dropped under their names as they are dropped themselves, if the
naming is injective. -/
theorem dropAll_comp (keys : List L) (m : K → Option V) :
    dropAll (keys.map name) m ∘ name = dropAll keys (m ∘ name) := by
  funext key
  simp [dropAll, hname.eq_iff]

/-- Different names for different keys keep the count. The keys are counted as
a set, and an injective naming maps it one to one. -/
theorem countHeld_comp (counts : Option V → Bool) (keys : List L) (m : K → Option V) :
    countHeld counts (keys.map name) m = countHeld counts keys (m ∘ name) := by
  have himage : ((keys.map name).toFinset.filter fun key => counts (m key) = true) =
      (keys.toFinset.filter fun key => counts ((m ∘ name) key) = true).image name := by
    ext key
    simp only [Finset.mem_filter, List.mem_toFinset, List.mem_map, Finset.mem_image,
      Function.comp_apply]
    constructor
    · rintro ⟨⟨l, hl, rfl⟩, hcounts⟩
      exact ⟨l, ⟨hl, hcounts⟩, rfl⟩
    · rintro ⟨l, ⟨hl, hcounts⟩, rfl⟩
      exact ⟨⟨l, hl, rfl⟩, hcounts⟩
  rw [countHeld, himage, Finset.card_image_of_injective _ hname]
  rfl

end Renamed

/-! ## Lists of distinct keys -/

section Lookup

variable {A B : Type} [BEq A] [LawfulBEq A]

/-- Among distinct keys, a lookup finds exactly the pairs of the list. Without
distinct keys it would find the first of them only. -/
theorem lookup_eq_some_iff_mem {l : List (A × B)} (h : (l.map Prod.fst).Nodup) (key : A) (v : B) :
    l.lookup key = some v ↔ (key, v) ∈ l := by
  induction l with
  | nil => simp
  | cons entry rest ih =>
      obtain ⟨first, value⟩ := entry
      obtain ⟨hfirst, hrest⟩ := List.nodup_cons.mp h
      rw [List.lookup_cons, List.mem_cons]
      by_cases hkey : key = first
      · subst hkey
        have hnot : (key, v) ∉ rest := fun hmem =>
          hfirst (List.mem_map.mpr ⟨(key, v), hmem, rfl⟩)
        simp [hnot, eq_comm]
      · have hbeq : (key == first) = false := by simpa using hkey
        simp [hbeq, hkey, ih hrest]

/-- The order of distinct keys does not matter for a lookup. -/
theorem lookup_perm {l l' : List (A × B)} (hperm : l.Perm l') (h : (l.map Prod.fst).Nodup)
    (key : A) : l.lookup key = l'.lookup key := by
  have h' : (l'.map Prod.fst).Nodup := (hperm.map Prod.fst).nodup_iff.mp h
  refine Option.ext fun v => ?_
  rw [lookup_eq_some_iff_mem h, lookup_eq_some_iff_mem h', hperm.mem_iff]

end Lookup

end KeyedBatch
