import NestCache.ConnectionLifecycle
import NestCache.HealthProbe

/-!
# Timeouts that are kept

Two admitted timeouts reach a timer: the shutdown hook races `quit()` against
one and the health probe its ping against another.  A timeout is honoured when
what comes within it is never treated as late.  The validators bound a timeout
from below only, the timer keeps delays up to a largest one;
`timeouts_honoured_iff` says which admitted timeouts are honoured.
-/

namespace NestCache

/-! ## One call of the shutdown hook -/

/-- What an action does to the call numbered `i`. -/
def ShutdownCall.after (i : Nat) (call : ShutdownCall) : LifecycleAction → ShutdownCall
  | .managerQuit j ok => if j = i then call.quit ok else call
  | .managerTimeout j => if j = i then call.timeout else call
  | .managerResume j => if j = i then call.return else call
  | _ => call

/-- Changing the record of a call shows at its number only. -/
theorem getElem?_set_call {calls : List ShutdownCall} {i j : Nat} {call record : ShutdownCall}
    (hcall : calls[i]? = some call) (hrecord : calls[j]? = some record)
    (change : ShutdownCall → ShutdownCall) :
    (calls.set j (change record))[i]? = some (if j = i then change call else call) := by
  by_cases hji : j = i
  · subst hji
    have hlength : j < calls.length := (List.getElem?_eq_some_iff.mp hcall).1
    rw [if_pos rfl, List.getElem?_set_self hlength, Option.some.inj (hcall.symm.trans hrecord)]
  · rw [if_neg hji, List.getElem?_set_ne hji, hcall]

/-- **Step lemma.** Only the actions of a call change its record, and its
timer fires only while the race is open. -/
theorem lifecycleStep_call {options : ResolvedOptions} {s s' : Lifecycle} {a : LifecycleAction}
    {more : List LifecycleEvent} (hstep : lifecycleStep options s a = some (s', more)) {i : Nat}
    {call : ShutdownCall} (hcall : s.managerCalls[i]? = some call) :
    s'.managerCalls[i]? = some (call.after i a) ∧
      (a = .managerTimeout i → call.outcome = none) := by
  cases a with
  | onModuleInit | getClient =>
      obtain ⟨_, _, hframe⟩ := s.finish_ensureClient_frame _
      rw [Option.some.inj hstep] at hframe
      obtain rfl : s' = _ := hframe
      exact ⟨hcall, nofun⟩
  | subscribe name | psubscribe name =>
      obtain ⟨_, _, hframe⟩ := s.subscribe_frame (.ofOptions options) name
      rw [Option.some.inj hstep] at hframe
      obtain rfl : s' = _ := hframe
      exact ⟨hcall, nofun⟩
  | managerShutdown =>
      cases hstep
      exact ⟨List.getElem?_append_left (List.getElem?_eq_some_iff.mp hcall).1 ▸ hcall, nofun⟩
  | pubsubShutdown =>
      cases hstep
      exact ⟨hcall, nofun⟩
  | managerQuit j ok =>
      simp only [lifecycleStep] at hstep
      split at hstep
      · rename_i client outcome resolved hrecord
        cases hstep
        exact ⟨getElem?_set_call hcall hrecord (.quit ok), nofun⟩
      · cases hstep
  | managerTimeout j =>
      simp only [lifecycleStep] at hstep
      split at hstep
      · rename_i client settled hrecord
        cases hstep
        refine ⟨getElem?_set_call hcall hrecord .timeout, ?_⟩
        rintro ⟨⟩
        rw [Option.some.inj (hcall.symm.trans hrecord)]
      · cases hstep
  | managerResume j =>
      simp only [lifecycleStep] at hstep
      split at hstep
      · rename_i client settled ok hrecord
        cases hstep
        exact ⟨getElem?_set_call hcall hrecord .return, nofun⟩
      · cases hstep
  | pubsubQuit j ok | pubsubResume j =>
      simp only [lifecycleStep] at hstep
      split at hstep <;> cases hstep
      exact ⟨hcall, nofun⟩

/-- The timer of a call fires in the run before its `quit()` has succeeded. -/
def TimerFirst (i : Nat) (as : List LifecycleAction) : Prop :=
  ∃ before after, as = before ++ .managerTimeout i :: after ∧ .managerQuit i true ∉ before

/-- What happens later does not change that the timer was first. -/
theorem TimerFirst.append {i : Nat} {as : List LifecycleAction} (h : TimerFirst i as)
    (more : List LifecycleAction) : TimerFirst i (as ++ more) := by
  obtain ⟨before, after, rfl, hquit⟩ := h
  exact ⟨before, after ++ more, by simp, hquit⟩

/-- What the history of a call says of its race: a `quit()` that succeeded has
decided it, and it is lost only to a failed `quit()` or to the timer. -/
structure CallHistory (i : Nat) (hist : List LifecycleAction) (call : ShutdownCall) : Prop where
  decided : .managerQuit i true ∈ hist → call.outcome ≠ none
  lost : call.outcome = some false → .managerQuit i false ∈ hist ∨ TimerFirst i hist

/-- One action extends the history. Only the three actions of the call itself
change it: its `quit()` settles, its timer fires, or it goes on. -/
theorem CallHistory.after {i : Nat} {hist : List LifecycleAction} {call : ShutdownCall}
    (h : CallHistory i hist call) {a : LifecycleAction}
    (hopen : a = .managerTimeout i → call.outcome = none) :
    CallHistory i (hist ++ [a]) (call.after i a) := by
  -- what leaves the outcome alone only lengthens the history
  have hkeep : ∀ {next : ShutdownCall}, next.outcome = call.outcome → a ≠ .managerQuit i true →
      CallHistory i (hist ++ [a]) next := by
    intro next hsame hquit
    refine ⟨fun hmem => ?_, fun hlost => ?_⟩
    · rw [hsame]
      exact h.decided ((List.mem_append.mp hmem).resolve_right (by simpa using hquit.symm))
    · rw [hsame] at hlost
      exact (h.lost hlost).imp (List.mem_append_left [a]) fun htimer => htimer.append [a]
  cases a with
  | managerQuit j ok =>
      by_cases hj : j = i
      · subst hj
        rw [ShutdownCall.after, if_pos rfl]
        refine ⟨fun _ => by simp [ShutdownCall.quit], fun hlost => ?_⟩
        cases houtcome : call.outcome with
        | none =>
            obtain rfl : ok = false := by simpa [ShutdownCall.quit, houtcome] using hlost
            exact Or.inl (by simp)
        | some first =>
            obtain rfl : first = false := by simpa [ShutdownCall.quit, houtcome] using hlost
            exact (h.lost houtcome).imp (List.mem_append_left _) fun htimer => htimer.append _
      · rw [ShutdownCall.after, if_neg hj]
        exact hkeep rfl (by simp [hj])
  | managerTimeout j =>
      by_cases hj : j = i
      · subst hj
        rw [ShutdownCall.after, if_pos rfl]
        have hquit : .managerQuit j true ∉ hist := fun hmem => h.decided hmem (hopen rfl)
        exact ⟨by simp [ShutdownCall.timeout], fun _ => Or.inr ⟨hist, [], by simp, hquit⟩⟩
      · rw [ShutdownCall.after, if_neg hj]
        exact hkeep rfl nofun
  | managerResume j =>
      by_cases hj : j = i
      · rw [ShutdownCall.after, if_pos hj]
        exact hkeep rfl nofun
      · rw [ShutdownCall.after, if_neg hj]
        exact hkeep rfl nofun
  | onModuleInit | getClient | subscribe | psubscribe | managerShutdown | pubsubShutdown
  | pubsubQuit | pubsubResume => exact hkeep rfl nofun

/-- **Run lemma.** After any run that follows the call of a hook, the record
of the call agrees with its history. -/
theorem callHistory_run {options : ResolvedOptions} {s t : Lifecycle} {as : List LifecycleAction}
    {out : List LifecycleEvent}
    (hrun : (lifecycleMachine options).runFrom s.managerShutdown as = some (t, out)) :
    ∃ call, t.managerCalls[s.managerCalls.length]? = some call ∧
      CallHistory s.managerCalls.length as call := by
  refine (lifecycleMachine options).runFrom_induction (I := fun hist _ u =>
    ∃ call, u.managerCalls[s.managerCalls.length]? = some call ∧
      CallHistory s.managerCalls.length hist call) ?_ ?_ hrun
  · exact ⟨{ client := s.client, resolved := s.client.isNone },
      by simp [Lifecycle.managerShutdown], by simp, nofun⟩
  · rintro hist seen u a u' more ⟨call, hcall, hhist⟩ hstep
    obtain ⟨hnext, hopen⟩ := lifecycleStep_call hstep hcall
    exact ⟨_, hnext, hhist.after hopen⟩

/-! ## The shutdown timeout -/

/-- The hook that suspended as call `i` closes its client with `disconnect()`
when it resumes. -/
def ForcesDisconnect (options : ResolvedOptions) (s : Lifecycle) (i : Nat) : Prop :=
  ∃ s' more client, lifecycleStep options s (.managerResume i) = some (s', more) ∧
    .disconnected client ∈ more

/-- A hook forces the disconnect only if it lost its race. -/
theorem ForcesDisconnect.outcome {options : ResolvedOptions} {s : Lifecycle} {i : Nat}
    (h : ForcesDisconnect options s i) {call : ShutdownCall}
    (hcall : s.managerCalls[i]? = some call) : call.outcome = some false := by
  obtain ⟨s', more, client, hstep, hmem⟩ := h
  simp only [lifecycleStep, hcall] at hstep
  split at hstep
  · rename_i held settled ok heq
    cases hstep
    cases ok with
    | true => simp at hmem
    | false => rw [Option.some.inj heq]
  · cases hstep

/-- In the run, the `quit()` of call `i` succeeds after the given time: it does
not fail, and the timer fires before it only if it is late. -/
structure QuitSucceeds (loop : EventLoop) (timeoutMs : JsNumber) (i : Nat) (elapsed : Rat)
    (as : List LifecycleAction) : Prop where
  succeeds : .managerQuit i false ∉ as
  timer : TimerFirst i as → loop.inTime elapsed (loop.fires timeoutMs) = false

/-- No hook forces the disconnect on a `quit()` that succeeds within the
timeout, whatever else happens meanwhile. -/
def ShutdownHonoured (options : ResolvedOptions) : Prop :=
  ∀ (loop : EventLoop) (elapsed : Rat) (before after : List LifecycleAction) (s t : Lifecycle)
    (seen more : List LifecycleEvent),
    (lifecycleMachine options).run before = some (s, seen) →
    (lifecycleMachine options).runFrom s (.managerShutdown :: after) = some (t, more) →
    QuitSucceeds loop options.shutdownTimeoutMs s.managerCalls.length elapsed after →
    loop.inTime elapsed (timeoutBound options.shutdownTimeoutMs) = true →
    ¬ ForcesDisconnect options t s.managerCalls.length

/-- The hook honours exactly the timeouts that its timer keeps. One that is
longer than the timer can keep is cut to a millisecond, and the client is
disconnected too early. -/
theorem shutdownHonoured_iff (options : ResolvedOptions) :
    ShutdownHonoured options ↔
      timeoutBound options.shutdownTimeoutMs ≤ timerDelay options.shutdownTimeoutMs := by
  rw [← inTime_within_iff]
  constructor
  · intro h loop elapsed hwithin
    by_contra hlate
    rw [Bool.not_eq_true] at hlate
    -- the first client, then the hook and its timer
    refine h loop elapsed [.onModuleInit] [.managerTimeout 0] _ _ _ _ rfl rfl
      ⟨by simp, fun _ => hlate⟩ hwithin ⟨_, _, 0, rfl, ?_⟩
    simp [lifecycleMachine]
  · intro h loop elapsed before after s t seen more hbefore hrun hquit hwithin hforces
    obtain ⟨s', first, rest, hstep, hafter, -⟩ := (lifecycleMachine options).runFrom_cons hrun
    obtain rfl : s.managerShutdown = s' := congrArg Prod.fst (Option.some.inj hstep)
    obtain ⟨call, hcall, hhist⟩ := callHistory_run hafter
    rcases hhist.lost (hforces.outcome hcall) with hfailed | htimer
    · exact hquit.succeeds hfailed
    · have hin := h loop elapsed hwithin
      rw [hquit.timer htimer] at hin
      cases hin

/-! ## The probe timeout -/

/-- No report calls a ping late that answers within the timeout. -/
def ProbeHonoured (adminOptions : ResolvedAdminOptions) : Prop :=
  ∀ (loop : EventLoop) (clock : ProbeClock) (options : ResolvedOptions) (elapsed : Rat)
    (reply : ForeignValue) (report : CacheHealth),
    CacheStatusService.health loop clock options adminOptions
      (.returns (.fulfilled elapsed reply)) = .ok report →
    loop.inTime elapsed (timeoutBound (.ofNat adminOptions.probeTimeoutMs.value)) = true →
    ∀ code, report.probe ≠ .down .timeout code

/-- A ping that answers is reported as late when its timer fires first.
Whatever it answers, `PONG` or something else, only the timer decides about
`timeout`. -/
theorem health_timeout_iff {loop : EventLoop} {clock : ProbeClock} {options : ResolvedOptions}
    {adminOptions : ResolvedAdminOptions} {elapsed : Rat} {reply : ForeignValue}
    {report : CacheHealth}
    (h : CacheStatusService.health loop clock options adminOptions
      (.returns (.fulfilled elapsed reply)) = .ok report) :
    (∃ code, report.probe = .down .timeout code) ↔ ¬ BeforeDeadline loop adminOptions elapsed := by
  obtain ⟨answer, hprobe, hreport⟩ := ok_of_bind_ok h
  cases hreport
  by_cases hbefore : BeforeDeadline loop adminOptions elapsed
  · refine iff_of_false ?_ (not_not_intro hbefore)
    by_cases hreply : reply = .text PONG
    · subst hreply
      obtain ⟨measured, hmeasured, hanswering⟩ := probe_pong loop clock adminOptions (.arrived hbefore)
      obtain rfl := Except.ok.inj (hprobe.symm.trans hmeasured)
      rcases hanswering with ⟨_, rfl⟩ | ⟨_, rfl⟩ <;> rintro ⟨code, ⟨⟩⟩
    · obtain rfl := Except.ok.inj (hprobe.symm.trans
        (probe_other loop clock adminOptions hreply hbefore))
      rintro ⟨code, ⟨⟩⟩
  · obtain rfl := Except.ok.inj (hprobe.symm.trans
      (probe_timeout loop clock adminOptions (.replied reply hbefore)))
    exact iff_of_true ⟨none, rfl⟩ hbefore

/-- The probe honours exactly the timeouts that its timer keeps. The limit is a
whole number, and a timer keeps it up to the largest delay. -/
theorem probeHonoured_iff (adminOptions : ResolvedAdminOptions) :
    ProbeHonoured adminOptions ↔
      timeoutBound (.ofNat adminOptions.probeTimeoutMs.value) ≤
        timerDelay (.ofNat adminOptions.probeTimeoutMs.value) := by
  rw [← inTime_within_iff]
  constructor
  · intro h loop elapsed hwithin
    by_contra hlate
    obtain ⟨report, hreport, hprobe⟩ : ∃ report, CacheStatusService.health loop ⟨0, 0⟩ defaultOptions
        adminOptions (.returns (.fulfilled elapsed .null)) = .ok report ∧
        report.probe = .down .timeout none := by
      rw [CacheStatusService.health, probe_timeout _ _ _ (.replied .null hlate)]
      exact ⟨_, rfl, rfl⟩
    exact h loop ⟨0, 0⟩ defaultOptions elapsed .null report hreport hwithin none hprobe
  · intro h loop clock options elapsed reply report hreport hwithin code hcode
    exact (health_timeout_iff hreport).mp ⟨code, hcode⟩ (h loop elapsed hwithin)

/-! ## Admitted timeouts -/

/-- What is not below 100 is not below 1. -/
theorem lt_one_of_lt_min {timeoutMs : JsNumber}
    (h : timeoutMs.lt MIN_SHUTDOWN_TIMEOUT_MS = false) : timeoutMs.lt 1 = false := by
  cases timeoutMs with
  | finite q =>
      have hmin : (100 : Rat) ≤ q := by
        simpa [JsNumber.lt, MIN_SHUTDOWN_TIMEOUT_MS, OfNat.ofNat] using h
      have hone : (1 : Rat) ≤ q := by linarith
      simpa [JsNumber.lt, OfNat.ofNat] using hone
  | nan => rfl
  | posInf => rfl
  | negInf => cases h

/-- An accepted shutdown timeout is not below 100. -/
theorem shutdownTimeout_of_validateOptions {rt : UrlRuntime} {options : BymaxCacheModuleOptions}
    (h : validateOptions rt options = .ok ()) :
    (applyDefaults options).shutdownTimeoutMs.lt MIN_SHUTDOWN_TIMEOUT_MS = false := by
  obtain ⟨-, -, h⟩ := ok_of_bind_ok h
  obtain ⟨-, -, h⟩ := ok_of_bind_ok h
  by_contra hlow
  rw [Bool.not_eq_false] at hlow
  have hshutdown : (options.shutdownTimeoutMs.getD DEFAULT_SHUTDOWN_TIMEOUT_MS).lt
      MIN_SHUTDOWN_TIMEOUT_MS = true := hlow
  simp [validateTimeouts, hshutdown, throwCache, bind, Except.bind] at h

/-- A resolved probe timeout is not below 1. -/
theorem probeTimeout_lt_one (adminOptions : ResolvedAdminOptions) :
    (JsNumber.ofNat adminOptions.probeTimeoutMs.value).lt 1 = false := by
  have hpos : (1 : Rat) ≤ adminOptions.probeTimeoutMs.value := by
    exact_mod_cast adminOptions.probeTimeoutMs.pos
  simpa [JsNumber.lt, JsNumber.ofNat, OfNat.ofNat] using hpos

/-- **Admitted timeouts.**  Of the shutdown timeouts that `validateOptions`
accepts and the probe timeouts of resolved administration options, which are
positive integers, exactly the whole numbers up to the largest delay of a timer
are honoured. -/
theorem timeouts_honoured_iff (rt : UrlRuntime) (options : BymaxCacheModuleOptions)
    (hvalid : validateOptions rt options = .ok ()) (resolved : ResolvedAdminOptions) :
    (ShutdownHonoured (applyDefaults options) ↔
      IsTimerDelay (applyDefaults options).shutdownTimeoutMs) ∧
    (ProbeHonoured resolved ↔ IsTimerDelay (.ofNat resolved.probeTimeoutMs.value)) := by
  constructor
  · rw [shutdownHonoured_iff,
      timeoutBound_le_iff (lt_one_of_lt_min (shutdownTimeout_of_validateOptions hvalid))]
  · rw [probeHonoured_iff, timeoutBound_le_iff (probeTimeout_lt_one resolved)]

/-- The defaults of both validators are honoured. -/
theorem timeouts_honoured_iff_defaults :
    ShutdownHonoured defaultOptions ∧ ProbeHonoured (adminOptions [appScope]) := by
  obtain ⟨hshutdown, hprobe⟩ := timeouts_honoured_iff noUrls
    { connection := some { host := some "localhost".toList } } rfl (adminOptions [appScope])
  refine ⟨hshutdown.mpr ⟨5000, rfl, by decide⟩, hprobe.mpr ?_⟩
  rw [isTimerDelay_ofNat]
  decide

/-- **A wait without end.** An infinite shutdown timeout and a probe timeout
of `2 ^ 31` are admitted, and both give up after one millisecond. -/
theorem endless_timeouts_not_honoured :
    (¬ ∀ (rt : UrlRuntime) (options : BymaxCacheModuleOptions),
      validateOptions rt options = .ok () → ShutdownHonoured (applyDefaults options)) ∧
    (¬ ∀ (options : BymaxCacheAdminModuleOptions) (resolved : ResolvedAdminOptions),
      resolveAdminOptions options = .ok resolved → ProbeHonoured resolved) := by
  constructor
  · intro h
    have hendless := h noUrls { connection := some { host := some "localhost".toList }
                                shutdownTimeoutMs := some .posInf } rfl
    rw [shutdownHonoured_iff, timeoutBound_le_iff rfl] at hendless
    obtain ⟨n, hn, -⟩ := hendless
    cases hn
  · intro h
    have hlong := h { scopes := [appScope], probeTimeoutMs := some 2147483648 }
      { adminOptions [appScope] with probeTimeoutMs := ⟨2147483648, by decide⟩ } rfl
    rw [probeHonoured_iff, timeoutBound_le_iff (probeTimeout_lt_one _), isTimerDelay_ofNat] at hlong
    exact absurd hlong (by decide)

end NestCache
