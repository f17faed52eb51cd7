import Mathlib.Data.List.Basic
import Mathlib.Tactic.Common

/-!
# Iterating over a collection that changes

A reader goes through a collection page by page while anyone may add and remove
elements.  A page holds elements that are there as it is read, and an element may
come on several pages.  A full iteration promises one thing more: an element that
has been there from its beginning to its end is on a page.

`Iteration` is the state of a reader that may read ahead: the pages it has read
and the ones that were not taken yet.  `Covers` is what is known at any time, and
`Covers.complete` what has been taken in the end.
-/

/-- A reader: the elements that have been there since it began, those on
its pages, the pages that were not taken yet and whether it has read the
last one. -/
structure Iteration (K : Type) where
  steady : List K
  read : List K := []
  pages : List (List K) := []
  drained : Bool := false

namespace Iteration

variable {K : Type}

/-- Begin, with these elements in the collection. -/
def begin (elements : List K) : Iteration K := { steady := elements }

/-- The collection has changed to what `held` says. -/
def notice (held : K → Bool) (it : Iteration K) : Iteration K :=
  { it with steady := it.steady.filter held }

/-- Read a page, which is the last one or not. -/
def readPage [DecidableEq K] (held : K → Bool) (page : List K) (last : Bool) (it : Iteration K) :
    Option (Iteration K) :=
  if it.drained = false ∧ (∀ k ∈ page, held k = true) ∧
      (last = true → ∀ k ∈ it.steady, k ∈ it.read ++ page) then
    some { it with read := it.read ++ page, pages := it.pages ++ [page], drained := last }
  else none

/-- Take the next page. -/
def takePage (it : Iteration K) : Option (List K × Iteration K) :=
  match it.pages with
  | [] => none
  | page :: rest => some (page, { it with pages := rest })

/-- Every page has been taken. -/
def isDone (it : Iteration K) : Bool := it.drained && it.pages.isEmpty

/-- What has been read has been taken or is still to be taken, and when nothing
more is to be read, that is everything that has been there all the time. -/
structure Covers (it : Iteration K) (taken : List K) : Prop where
  kept : ∀ k ∈ it.read, k ∈ taken ∨ k ∈ it.pages.flatten
  full : it.drained = true → ∀ k ∈ it.steady, k ∈ it.read

variable {it next : Iteration K} {taken page : List K} {held : K → Bool} {last : Bool}

/-- At the start nothing has been read, and something is still to be read. -/
theorem Covers.begin (elements : List K) : Covers (begin elements) [] :=
  ⟨by simp [Iteration.begin], by simp [Iteration.begin]⟩

/-- Changes by others only shrink what has been there all the time. -/
theorem Covers.notice (h : Covers it taken) (held : K → Bool) :
    Covers (it.notice held) taken :=
  ⟨h.kept, fun hdrained k hk => h.full hdrained k (List.mem_of_mem_filter hk)⟩

/-- What reading a page takes and gives. Its elements are there at the time;
the last page may only end the reading when everything steady was read. -/
theorem readPage_eq_some [DecidableEq K] (h : it.readPage held page last = some next) :
    (∀ k ∈ page, held k = true) ∧ next.steady = it.steady ∧
      next.pages = it.pages ++ [page] ∧ ∀ taken, Covers it taken → Covers next taken := by
  unfold readPage at h
  split at h
  · rename_i hguard
    obtain rfl := Option.some.inj h
    refine ⟨hguard.2.1, rfl, rfl, fun taken hcovers => ⟨fun k hk => ?_, hguard.2.2⟩⟩
    rcases List.mem_append.mp hk with hk | hk
    · rcases hcovers.kept k hk with htaken | hpages
      · exact .inl htaken
      · exact .inr (by simp [List.flatten_append, hpages])
    · exact .inr (by simp [List.flatten_append, hk])
  · cases h

/-- What taking a page takes and gives. The first page is taken from those that
were read, and counts as taken from then on. -/
theorem takePage_eq_some (h : it.takePage = some (page, next)) :
    it.pages = page :: next.pages ∧ next.steady = it.steady ∧
      ∀ taken, Covers it taken → Covers next (taken ++ page) := by
  unfold takePage at h
  split at h
  · cases h
  · rename_i first rest hpages
    obtain ⟨rfl, rfl⟩ := Prod.mk.inj (Option.some.inj h)
    refine ⟨hpages, rfl, fun taken hcovers => ⟨fun k hk => ?_, hcovers.full⟩⟩
    rcases hcovers.kept k hk with htaken | hmem
    · exact .inl (List.mem_append_left _ htaken)
    · rw [hpages, List.flatten_cons] at hmem
      rcases List.mem_append.mp hmem with hmem | hmem
      · exact .inl (List.mem_append_right _ hmem)
      · exact .inr hmem

/-- **A full iteration.**  What has been there all the time has been taken. -/
theorem Covers.complete (h : Covers it taken) (hdone : it.isDone = true) :
    ∀ k ∈ it.steady, k ∈ taken := by
  intro k hk
  obtain ⟨hdrained, hpages⟩ : it.drained = true ∧ it.pages = [] := by
    simpa [isDone] using hdone
  rcases h.kept k (h.full hdrained k hk) with htaken | hmem
  · exact htaken
  · simp [hpages] at hmem

end Iteration
