import Mathlib.Data.Rat.Floor
import Mathlib.Tactic.Linarith
import NestCache.JsValues

/-!
# Timers and deadlines

`setTimeout` takes any number and keeps only part of them: a delay that is `NaN`,
below 1 or above the largest signed 32-bit integer fires after one millisecond,
and a fraction is cut off.  A promise that is raced against such a timer either
settles in time or does not.
-/

namespace NestCache

/-- The largest delay that a timer keeps. -/
def MAX_TIMER_DELAY_MS : Nat := 2147483647

/-- The delay that `setTimeout` gives a timer. -/
def timerDelay : JsNumber → Nat
  | .finite q => if 1 ≤ q ∧ q ≤ MAX_TIMER_DELAY_MS then ⌊q⌋.toNat else 1
  | _ => 1

/-- How the event loop serves a timer: never early, and on a tie with a reply
either may be handled first. -/
structure EventLoop where
  late : Rat
  late_nonneg : 0 ≤ late
  timerFirst : Bool

/-- A loop that fires timers on the millisecond. -/
def EventLoop.punctual (timerFirst : Bool) : EventLoop := ⟨0, le_refl 0, timerFirst⟩

/-- When a timer fires, counted from the call. -/
def EventLoop.fires (loop : EventLoop) (timeoutMs : JsNumber) : Rat :=
  timerDelay timeoutMs + loop.late

/-- A reply after `elapsed` milliseconds comes before a deadline. -/
def EventLoop.inTime (loop : EventLoop) (elapsed deadline : Rat) : Bool :=
  if loop.timerFirst then elapsed < deadline else elapsed ≤ deadline

/-- A promise: whether it settles, when and with what. -/
inductive Promised (α ε : Type)
  | pending
  | fulfilled (elapsed : Rat) (value : α)
  | rejected (elapsed : Rat) (reason : ε)

/-! ## What a timer waits -/

/-- What is in time for a deadline is in time for a later one. -/
theorem EventLoop.inTime_mono (loop : EventLoop) {elapsed deadline deadline' : Rat}
    (h : loop.inTime elapsed deadline = true) (hle : deadline ≤ deadline') :
    loop.inTime elapsed deadline' = true := by
  cases hfirst : loop.timerFirst with
  | true =>
      simp only [EventLoop.inTime, hfirst, if_true, decide_eq_true_eq] at h ⊢
      exact lt_of_lt_of_le h hle
  | false =>
      simp only [EventLoop.inTime, hfirst, Bool.false_eq_true, if_false, decide_eq_true_eq] at h ⊢
      exact le_trans h hle

/-- Whoever goes first on a tie, what comes earlier is in time. -/
theorem EventLoop.inTime_of_lt (loop : EventLoop) {elapsed deadline : Rat}
    (h : elapsed < deadline) : loop.inTime elapsed deadline = true := by
  cases hfirst : loop.timerFirst <;> simp [EventLoop.inTime, hfirst, h, le_of_lt h]

/-- What comes behind the deadline is not in time, on any event loop; only a
tie is left to the loop. -/
theorem EventLoop.not_inTime_of_gt (loop : EventLoop) {elapsed deadline : Rat}
    (h : deadline < elapsed) : loop.inTime elapsed deadline = false := by
  cases hfirst : loop.timerFirst <;> simp [EventLoop.inTime, hfirst, h, le_of_lt h]

/-- The wait that a timeout stands for: the timeout itself, or the largest
delay where the timeout is not below it. -/
def timeoutBound (timeoutMs : JsNumber) : Rat :=
  match timeoutMs with
  | .finite q => min q MAX_TIMER_DELAY_MS
  | _ => MAX_TIMER_DELAY_MS

/-- A number of milliseconds that a timer keeps as it is. -/
def IsTimerDelay (timeoutMs : JsNumber) : Prop :=
  ∃ n : Nat, timeoutMs = .ofNat n ∧ n ≤ MAX_TIMER_DELAY_MS

/-- A whole number of milliseconds is kept by a timer up to the largest
delay. -/
theorem isTimerDelay_ofNat {n : Nat} : IsTimerDelay (.ofNat n) ↔ n ≤ MAX_TIMER_DELAY_MS := by
  constructor
  · rintro ⟨m, hm, hle⟩
    obtain rfl : n = m := by exact_mod_cast JsNumber.finite.inj hm
    exact hle
  · exact fun hle => ⟨n, rfl, hle⟩

/-- A timer waits as long as its timeout says exactly for the delays it
keeps. -/
theorem timeoutBound_le_iff {timeoutMs : JsNumber} (hmin : timeoutMs.lt 1 = false) :
    timeoutBound timeoutMs ≤ timerDelay timeoutMs ↔ IsTimerDelay timeoutMs := by
  have hshort : ¬ ((MAX_TIMER_DELAY_MS : Rat) ≤ (1 : Nat)) := by
    rw [Nat.cast_le, MAX_TIMER_DELAY_MS]
    decide
  cases timeoutMs with
  | nan => exact iff_of_false hshort (by rintro ⟨n, hn, -⟩; cases hn)
  | posInf => exact iff_of_false hshort (by rintro ⟨n, hn, -⟩; cases hn)
  | negInf => cases hmin
  | finite q =>
      have hone : (1 : Rat) ≤ q := by simpa [JsNumber.lt, OfNat.ofNat] using hmin
      by_cases hmax : q ≤ MAX_TIMER_DELAY_MS
      · have hfloor : ((⌊q⌋.toNat : Nat) : Rat) = (⌊q⌋ : Rat) := by
          have hnonneg : 0 ≤ ⌊q⌋ := Int.floor_nonneg.mpr (by linarith)
          exact_mod_cast Int.toNat_of_nonneg hnonneg
        simp only [timeoutBound, timerDelay, min_eq_left hmax, if_pos (And.intro hone hmax)]
        constructor
        · intro hle
          have hwhole : q = (⌊q⌋.toNat : Nat) := le_antisymm hle (hfloor ▸ Int.floor_le q)
          refine ⟨⌊q⌋.toNat, by rw [JsNumber.ofNat, ← hwhole], ?_⟩
          rw [hwhole] at hmax
          exact_mod_cast hmax
        · rintro ⟨n, hn, -⟩
          obtain rfl : q = (n : Rat) := JsNumber.finite.inj hn
          simp
      · rw [not_le] at hmax
        have hout : ¬ (1 ≤ q ∧ q ≤ MAX_TIMER_DELAY_MS) := fun h => absurd h.2 (not_le.mpr hmax)
        refine iff_of_false ?_ ?_
        · simpa only [timeoutBound, timerDelay, min_eq_right hmax.le, if_neg hout] using hshort
        · rintro ⟨n, hn, hle⟩
          obtain rfl : q = (n : Rat) := JsNumber.finite.inj hn
          rw [Nat.cast_lt] at hmax
          omega

/-- A reply within the timeout is in time on every loop exactly when the timer
waits as long as the timeout. -/
theorem inTime_within_iff (timeoutMs : JsNumber) :
    (∀ (loop : EventLoop) (elapsed : Rat), loop.inTime elapsed (timeoutBound timeoutMs) = true →
      loop.inTime elapsed (loop.fires timeoutMs) = true) ↔
    timeoutBound timeoutMs ≤ timerDelay timeoutMs := by
  constructor
  · intro h
    by_contra hlt
    rw [not_le] at hlt
    -- the instant halfway between the timer and the bound
    obtain ⟨elapsed, hlow, hhigh⟩ := exists_between hlt
    have hlate := h (.punctual true) elapsed (EventLoop.inTime_of_lt _ hhigh)
    rw [EventLoop.not_inTime_of_gt _ (by simpa [EventLoop.fires, EventLoop.punctual] using hlow)]
      at hlate
    cases hlate
  · intro hle loop elapsed hin
    refine loop.inTime_mono hin (le_trans hle ?_)
    have hlate := loop.late_nonneg
    rw [EventLoop.fires]
    linarith

end NestCache
