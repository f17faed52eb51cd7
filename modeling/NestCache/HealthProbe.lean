import NestCache.AdminGuarantees
import NestCache.NumeralsAndDates
import NestCache.OptionValidation
import NestCache.Timers

/-!
# The health probe

`health` pings under a deadline and reports one of three states.  What the ping
comes to is not in the library's hands: it may throw, reply or reject with any
value, before or after the deadline, or never settle.
`health_tells_outcome_iff` says for which of these the report is the right one.
-/

namespace NestCache

/-! ## The service -/

/-- A value from outside, as far as the probe looks at it: its type, the text
of a string and, of an object, what reading its `code` gives or throws. -/
inductive ForeignValue
  | undefined
  | null
  | boolean (b : Bool)
  | number (n : JsNumber)
  | bigint (n : Int)
  | text (t : Text)
  | symbol
  | function
  | object (code : ForeignValue)
  | hostile (raised : ForeignValue)
  deriving DecidableEq

/-- What the ping comes to. -/
inductive PingOutcome
  | throws (error : ForeignValue)
  | returns (work : Promised ForeignValue ForeignValue)

/-- Why a probe did not answer. -/
inductive CacheProbeFailure
  | timeout
  | error
  deriving DecidableEq

/-- `CacheProbe`: a latency exists only where a reply was measured. -/
inductive CacheProbe
  | up (latencyMs : JsNumber)
  | degraded (latencyMs : JsNumber)
  | down (reason : CacheProbeFailure) (code : Option Text)
  deriving DecidableEq

/-- The cache's health. -/
structure CacheHealth where
  probe : CacheProbe
  mode : CacheMode
  isScanSupported : Bool
  degradedAboveMs : PositiveInteger
  deriving DecidableEq

/-- The readings of `performance.now()` before the ping and after its reply. -/
structure ProbeClock where
  started : Rat
  ended : Rat

/-- The reply a healthy Redis sends to `PING`. -/
def PONG : Text := "PONG".toList

/-- The one mode in which the library refuses `SCAN`. -/
def SCAN_UNSUPPORTED_MODE : CacheMode := .cluster

/-- `Math.round`: the nearest integer, a half goes up. -/
def mathRound : JsNumber → JsNumber
  | .finite q => .finite ⌊q + 1 / 2⌋
  | n => n

/-- Races a probe against its deadline; `none` is the timeout marker. -/
def raceDeadline (loop : EventLoop) (work : Promised ForeignValue ForeignValue)
    (timeoutMs : JsNumber) : Except ForeignValue (Option ForeignValue) :=
  match work with
  | .pending => .ok none
  | .fulfilled elapsed value =>
      if loop.inTime elapsed (loop.fires timeoutMs) then .ok (some value) else .ok none
  | .rejected elapsed reason =>
      if loop.inTime elapsed (loop.fires timeoutMs) then .error reason else .ok none

/-- Reads a driver's syscall code from a thrown value. -/
def readErrorCode : ForeignValue → Except ForeignValue (Option Text)
  | .object (.text code) => .ok (some code)
  -- the getter of the property throws, and nothing catches
  | .hostile raised => .error raised
  | _ => .ok none

namespace CacheStatusService

variable (loop : EventLoop) (clock : ProbeClock) (options : ResolvedOptions)
  (adminOptions : ResolvedAdminOptions) (ping : PingOutcome)

/-- What the `try` block of `probe` gives. -/
def awaitPing : Except ForeignValue (Option ForeignValue) :=
  match ping with
  | .throws error => .error error
  | .returns work => raceDeadline loop work (.ofNat adminOptions.probeTimeoutMs.value)

/-- Measures one `PING`. -/
def probe : Except ForeignValue CacheProbe :=
  match awaitPing loop adminOptions ping with
  | .error error => do
      let code ← readErrorCode error
      return .down .error code
  | .ok none => .ok (.down .timeout none)
  | .ok (some reply) =>
      if reply ≠ .text PONG then .ok (.down .error none)
      else
        let latencyMs := mathRound (.ofRat (clock.ended - clock.started))
        if (JsNumber.ofNat adminOptions.degradedAboveMs.value).lt latencyMs then
          .ok (.degraded latencyMs)
        else .ok (.up latencyMs)

/-- Pings Redis and reports the result in three states. An error is a
rejection. -/
def health : Except ForeignValue CacheHealth := do
  let probe ← probe loop clock adminOptions ping
  return {
    probe
    mode := options.mode
    isScanSupported := decide (options.mode ≠ SCAN_UNSUPPORTED_MODE)
    degradedAboveMs := adminOptions.degradedAboveMs }

end CacheStatusService

/-! ## What the report should say -/

section Outcome

variable (loop : EventLoop) (adminOptions : ResolvedAdminOptions)

/-- Something came before the deadline. -/
def BeforeDeadline (elapsed : Rat) : Prop :=
  loop.inTime elapsed (loop.fires (.ofNat adminOptions.probeTimeoutMs.value)) = true

/-- `PONG` arrived before the deadline. -/
inductive PongInTime : PingOutcome → Prop
  | arrived {elapsed : Rat} (h : BeforeDeadline loop adminOptions elapsed) :
      PongInTime (.returns (.fulfilled elapsed (.text PONG)))

/-- The deadline passed first. -/
inductive DeadlineFirst : PingOutcome → Prop
  | silent : DeadlineFirst (.returns .pending)
  | replied {elapsed : Rat} (value : ForeignValue) (h : ¬ BeforeDeadline loop adminOptions elapsed) :
      DeadlineFirst (.returns (.fulfilled elapsed value))
  | rejected {elapsed : Rat} (reason : ForeignValue)
      (h : ¬ BeforeDeadline loop adminOptions elapsed) :
      DeadlineFirst (.returns (.rejected elapsed reason))

/-- The ping fails, before the deadline, with an object whose `code` cannot be
read. -/
inductive FailsUnreadably : PingOutcome → Prop
  | thrown (raised : ForeignValue) : FailsUnreadably (.throws (.hostile raised))
  | rejected {elapsed : Rat} (raised : ForeignValue)
      (h : BeforeDeadline loop adminOptions elapsed) :
      FailsUnreadably (.returns (.rejected elapsed (.hostile raised)))

/-- The report says what the ping came to. -/
structure TellsOutcome (ping : PingOutcome) (probe : CacheProbe) : Prop where
  answering : ((∃ latencyMs, probe = .up latencyMs) ∨ ∃ latencyMs, probe = .degraded latencyMs) ↔
    PongInTime loop adminOptions ping
  down : (∃ reason code, probe = .down reason code) ↔ ¬ PongInTime loop adminOptions ping
  timeout : (∃ code, probe = .down .timeout code) ↔ DeadlineFirst loop adminOptions ping

end Outcome

/-! ## Outcome by outcome -/

section Reports

variable {loop : EventLoop} {adminOptions : ResolvedAdminOptions} {ping : PingOutcome}

/-- A reply in time is not one behind the deadline. -/
theorem PongInTime.not_deadlineFirst (h : PongInTime loop adminOptions ping) :
    ¬ DeadlineFirst loop adminOptions ping := by
  obtain ⟨hbefore⟩ := h
  rintro ⟨⟩
  contradiction

/-- The same the other way round. -/
theorem DeadlineFirst.not_pongInTime (h : DeadlineFirst loop adminOptions ping) :
    ¬ PongInTime loop adminOptions ping :=
  fun hpong => hpong.not_deadlineFirst h

/-- A latency is right when `PONG` arrived in time. -/
theorem tellsOutcome_answering (h : PongInTime loop adminOptions ping) {probe : CacheProbe}
    (hprobe : (∃ latencyMs, probe = .up latencyMs) ∨ ∃ latencyMs, probe = .degraded latencyMs) :
    TellsOutcome loop adminOptions ping probe := by
  have hup : ∀ reason code, probe ≠ .down reason code := by
    rintro reason code rfl
    rcases hprobe with ⟨_, hprobe⟩ | ⟨_, hprobe⟩ <;> cases hprobe
  refine ⟨iff_of_true hprobe h, iff_of_false ?_ (not_not_intro h), iff_of_false ?_ h.not_deadlineFirst⟩
  · rintro ⟨reason, code, hdown⟩
    exact hup reason code hdown
  · rintro ⟨code, hdown⟩
    exact hup .timeout code hdown

/-- A down report gives the timeout as its reason when the deadline
passed first. -/
theorem tellsOutcome_down (h : ¬ PongInTime loop adminOptions ping) {reason : CacheProbeFailure}
    (hreason : reason = .timeout ↔ DeadlineFirst loop adminOptions ping) (code : Option Text) :
    TellsOutcome loop adminOptions ping (.down reason code) := by
  refine ⟨iff_of_false ?_ h, iff_of_true ⟨reason, code, rfl⟩ h, ?_⟩
  · rintro (⟨_, hprobe⟩ | ⟨_, hprobe⟩) <;> cases hprobe
  · rw [← hreason]
    constructor
    · rintro ⟨_, hprobe⟩
      exact (CacheProbe.down.inj hprobe).1
    · rintro rfl
      exact ⟨code, rfl⟩

/-- Where the deadline passes first, `timeout` tells what happened. -/
theorem tellsOutcome_timeout (h : DeadlineFirst loop adminOptions ping) :
    TellsOutcome loop adminOptions ping (.down .timeout none) :=
  tellsOutcome_down h.not_pongInTime (iff_of_true rfl h) none

/-- Where the ping fails in time, or answers something else than `PONG`,
`error` tells what happened, with whatever code. -/
theorem tellsOutcome_error (hpong : ¬ PongInTime loop adminOptions ping)
    (htimeout : ¬ DeadlineFirst loop adminOptions ping) (code : Option Text) :
    TellsOutcome loop adminOptions ping (.down .error code) :=
  tellsOutcome_down hpong (iff_of_false (by decide) htimeout) code

end Reports

/-- Only an object can keep its `code` from being read. -/
theorem readErrorCode_cases (error : ForeignValue) :
    (∃ raised, error = .hostile raised ∧ readErrorCode error = .error raised) ∨
    ((∀ raised, error ≠ .hostile raised) ∧ ∃ code, readErrorCode error = .ok code) := by
  cases error with
  | hostile raised => exact Or.inl ⟨raised, rfl, rfl⟩
  | object code =>
      refine Or.inr ⟨nofun, ?_⟩
      cases code <;> exact ⟨_, rfl⟩
  | _ => exact Or.inr ⟨nofun, _, rfl⟩

section Probe

variable (loop : EventLoop) (clock : ProbeClock) (adminOptions : ResolvedAdminOptions)

open CacheStatusService

/-- What comes in time is what the race gives. -/
theorem raceDeadline_in_time {elapsed : Rat} (h : BeforeDeadline loop adminOptions elapsed)
    (v : ForeignValue) :
    awaitPing loop adminOptions (.returns (.fulfilled elapsed v)) = .ok (some v) ∧
    awaitPing loop adminOptions (.returns (.rejected elapsed v)) = .error v :=
  ⟨if_pos h, if_pos h⟩

/-- `PONG` in time is measured. -/
theorem probe_pong {ping : PingOutcome} (h : PongInTime loop adminOptions ping) :
    ∃ answer, probe loop clock adminOptions ping = .ok answer ∧
      ((∃ latencyMs, answer = .up latencyMs) ∨ ∃ latencyMs, answer = .degraded latencyMs) := by
  obtain ⟨hbefore⟩ := h
  rw [probe, (raceDeadline_in_time loop adminOptions hbefore _).1]
  simp only [ne_eq, not_true_eq_false, if_false]
  split
  · exact ⟨_, rfl, Or.inr ⟨_, rfl⟩⟩
  · exact ⟨_, rfl, Or.inl ⟨_, rfl⟩⟩

/-- A deadline that passes first is reported as such. -/
theorem probe_timeout {ping : PingOutcome} (h : DeadlineFirst loop adminOptions ping) :
    probe loop clock adminOptions ping = .ok (.down .timeout none) := by
  have hreply : awaitPing loop adminOptions ping = .ok none := by
    cases h with
    | silent => rfl
    | replied value h => exact if_neg h
    | rejected reason h => exact if_neg h
  rw [probe, hreply]

/-- Another reply in time is an error without a code. -/
theorem probe_other {elapsed : Rat} {value : ForeignValue} (hvalue : value ≠ .text PONG)
    (h : BeforeDeadline loop adminOptions elapsed) :
    probe loop clock adminOptions (.returns (.fulfilled elapsed value)) = .ok (.down .error none) := by
  rw [probe, (raceDeadline_in_time loop adminOptions h value).1]
  simp only [ne_eq, hvalue, not_false_eq_true, if_true]

/-- The error that the ping fails with before the deadline. -/
inductive FailsWith (error : ForeignValue) : PingOutcome → Prop
  | thrown : FailsWith error (.throws error)
  | rejected {elapsed : Rat} (h : BeforeDeadline loop adminOptions elapsed) :
      FailsWith error (.returns (.rejected elapsed error))

/-- A failure is reported once its `code` is read. -/
theorem probe_failed {ping : PingOutcome} {error : ForeignValue}
    (h : FailsWith loop adminOptions error ping) :
    probe loop clock adminOptions ping = (readErrorCode error).map (CacheProbe.down .error) := by
  have hreply : awaitPing loop adminOptions ping = .error error := by
    cases h with
    | thrown => rfl
    | rejected h => exact (raceDeadline_in_time loop adminOptions h error).2
  rw [probe, hreply]
  cases hread : readErrorCode error <;>
    simp [hread, bind, Except.bind, pure, Except.pure, Except.map]

/-- The ping is one of four things. It answers in time, is overtaken by the
deadline, answers something else in time, or fails in time. -/
theorem pingOutcome_cases (ping : PingOutcome) :
    PongInTime loop adminOptions ping ∨ DeadlineFirst loop adminOptions ping ∨
    (∃ elapsed value, BeforeDeadline loop adminOptions elapsed ∧ value ≠ .text PONG ∧
      ping = .returns (.fulfilled elapsed value)) ∨
    ∃ error, FailsWith loop adminOptions error ping := by
  rcases ping with error | (_ | ⟨elapsed, value⟩ | ⟨elapsed, reason⟩)
  · exact Or.inr (Or.inr (Or.inr ⟨error, .thrown⟩))
  · exact Or.inr (Or.inl .silent)
  · by_cases hbefore : BeforeDeadline loop adminOptions elapsed
    · by_cases hvalue : value = .text PONG
      · subst hvalue
        exact Or.inl (.arrived hbefore)
      · exact Or.inr (Or.inr (Or.inl ⟨elapsed, value, hbefore, hvalue, rfl⟩))
    · exact Or.inr (Or.inl (.replied value hbefore))
  · by_cases hbefore : BeforeDeadline loop adminOptions elapsed
    · exact Or.inr (Or.inr (Or.inr ⟨reason, .rejected hbefore⟩))
    · exact Or.inr (Or.inl (.rejected reason hbefore))

/-- A failure is unreadable exactly when its error is. -/
theorem FailsWith.failsUnreadably_iff {ping : PingOutcome} {error : ForeignValue}
    (h : FailsWith loop adminOptions error ping) :
    FailsUnreadably loop adminOptions ping ↔ ∃ raised, error = .hostile raised := by
  constructor
  · intro hunreadable
    cases hunreadable <;> cases h <;> exact ⟨_, rfl⟩
  · rintro ⟨raised, rfl⟩
    cases h with
    | thrown => exact .thrown raised
    | rejected h => exact .rejected raised h

/-- A ping that fails has not answered. -/
theorem FailsWith.not_pongInTime {ping : PingOutcome} {error : ForeignValue}
    (h : FailsWith loop adminOptions error ping) : ¬ PongInTime loop adminOptions ping := by
  rintro ⟨⟩
  cases h

/-- A ping that fails has done so before the deadline. -/
theorem FailsWith.not_deadlineFirst {ping : PingOutcome} {error : ForeignValue}
    (h : FailsWith loop adminOptions error ping) : ¬ DeadlineFirst loop adminOptions ping := by
  intro hdeadline
  cases h with
  | thrown => cases hdeadline
  | rejected h =>
      cases hdeadline
      contradiction

/-- **The health probe.**  For every event loop, clock, options and outcome of
the ping, `health` resolves with a report that says what the ping came to,
exactly when the ping does not fail in time with an object whose `code` cannot
be read. -/
theorem health_tells_outcome_iff (options : ResolvedOptions) (ping : PingOutcome) :
    (∃ report, health loop clock options adminOptions ping = .ok report ∧
      TellsOutcome loop adminOptions ping report.probe) ↔
    ¬ FailsUnreadably loop adminOptions ping := by
  have hhealth : ∀ {probe'}, probe loop clock adminOptions ping = .ok probe' →
      TellsOutcome loop adminOptions ping probe' →
      ∃ report, health loop clock options adminOptions ping = .ok report ∧
        TellsOutcome loop adminOptions ping report.probe := by
    intro probe' hprobe htells
    exact ⟨_, by rw [health, hprobe]; rfl, htells⟩
  rcases pingOutcome_cases loop adminOptions ping with
    hpong | htimeout | ⟨elapsed, value, hbefore, hvalue, rfl⟩ | ⟨error, herror⟩
  · obtain ⟨answer, hprobe, hanswering⟩ := probe_pong loop clock adminOptions hpong
    refine iff_of_true (hhealth hprobe (tellsOutcome_answering hpong hanswering)) ?_
    obtain ⟨hbefore⟩ := hpong
    rintro ⟨⟩
  · refine iff_of_true (hhealth (probe_timeout loop clock adminOptions htimeout)
      (tellsOutcome_timeout htimeout)) ?_
    rintro (_ | ⟨_, hbefore⟩)
    · cases htimeout
    · cases htimeout
      contradiction
  · have hpong : ¬ PongInTime loop adminOptions (.returns (.fulfilled elapsed value)) := by
      rintro ⟨⟩
      exact hvalue rfl
    have hdeadline : ¬ DeadlineFirst loop adminOptions (.returns (.fulfilled elapsed value)) := by
      rintro ⟨⟩
      contradiction
    exact iff_of_true (hhealth (probe_other loop clock adminOptions hvalue hbefore)
      (tellsOutcome_error hpong hdeadline none)) nofun
  · rw [herror.failsUnreadably_iff]
    have hprobe := probe_failed loop clock adminOptions herror
    rcases readErrorCode_cases error with ⟨raised, rfl, hread⟩ | ⟨hreadable, code, hread⟩
    · refine iff_of_false ?_ (not_not_intro ⟨raised, rfl⟩)
      rintro ⟨report, hreport, -⟩
      rw [health, hprobe, hread] at hreport
      cases hreport
    · rw [hread] at hprobe
      refine iff_of_true (hhealth hprobe (tellsOutcome_error herror.not_pongInTime
        herror.not_deadlineFirst code)) ?_
      rintro ⟨raised, rfl⟩
      exact hreadable raised rfl

end Probe

/-- **A report that throws.**  A ping that rejects with an object whose `code`
getter throws makes `health` reject. -/
theorem health_rejects : ¬ ∀ (loop : EventLoop) (clock : ProbeClock) (options : ResolvedOptions)
    (adminOptions : ResolvedAdminOptions) (ping : PingOutcome),
    ∃ report, CacheStatusService.health loop clock options adminOptions ping = .ok report := by
  intro h
  obtain ⟨report, hreport⟩ := h (.punctual true) ⟨1000, 1005⟩ (applyDefaults {}) (adminOptions [])
    (.returns (.rejected 0 (.hostile (.text "unreadable".toList))))
  have hrejects : CacheStatusService.health (.punctual true) ⟨1000, 1005⟩ (applyDefaults {})
      (adminOptions []) (.returns (.rejected 0 (.hostile (.text "unreadable".toList)))) =
        .error (.text "unreadable".toList) := by
    decide +kernel
  rw [hrejects] at hreport
  cases hreport

end NestCache
