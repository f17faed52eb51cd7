import NestCache.SubscriptionInvariant

/-!
# What the Pub/Sub service remembers of a run

The fields of the service and of its connection are a record of the run so far:
the callers are the calls that were not refused, the `released` variables are
the `Unsubscribe` calls made, and the commands are those that were sent.

* `recordStep_step` — what one piece of work adds to the record;
* `recordsRun_run` — hence, by induction on the run, the record is complete and
  holds nothing else.
-/

namespace NestCache

/-! ## The calls, the answers and the commands of a run -/

/-- The target of a call that joins a subscription; a refused name joins
none. -/
def PubSubAction.joins {M : Type} (deps : PubSubDeps M) : PubSubAction → Option Target
  | .subscribe channel =>
      (deps.keyBuilder.applyNamespace channel).toOption.map (Target.mk .channel)
  | .psubscribe pattern =>
      (deps.keyBuilder.applyNamespace pattern).toOption.map (Target.mk .pattern)
  | _ => none

/-- How the server answers a command that it processes. -/
def PubSubAction.answer : PubSubAction → Option Bool
  | .process ok => some ok
  | _ => none

/-- The command sent. -/
def PubSubOutput.command {M : Type} : PubSubOutput M → Option SubscriberCommand
  | .sent command => some command
  | _ => none

/-- The targets of the callers, in the order of their calls. -/
def Service.targets (v : Service) : List Target :=
  (List.range v.callerCount).map fun c => (v.callers c).target

/-- The commands sent, in order. -/
def SubscriberConnection.log (n : SubscriberConnection) : List SubscriberCommand :=
  (List.range n.sent).map n.commands

/-- The answers of the server, in order. -/
def SubscriberConnection.answers (n : SubscriberConnection) : List Bool :=
  (List.range n.processed).map n.accepted

/-- A `subscribe` or `psubscribe` joins the target with the namespace in front
of the name, unless the name is refused. -/
theorem joins_join {M : Type} (deps : PubSubDeps M) (kind : TargetKind) (name : Text) :
    (kind.join name).joins deps =
      (deps.keyBuilder.applyNamespace name).toOption.map (Target.mk kind) := by
  cases kind <;> rfl

@[simp] theorem answer_join (kind : TargetKind) (name : Text) :
    (kind.join name).answer = none := by
  cases kind <;> rfl

/-- A call that subscribes is no call of Unsubscribe. -/
theorem unsubscribe_ne_join (kind : TargetKind) (name : Text) (c : Nat) :
    kind.join name ≠ .unsubscribe c := by
  cases kind <;> simp [TargetKind.join]

/-- A table that grows by one entry grows by one entry as a list. -/
theorem map_range_update {α : Type} (f : Nat → α) (n : Nat) (x : α) :
    (List.range (n + 1)).map (Function.update f n x) = (List.range n).map f ++ [x] := by
  rw [List.range_succ, List.map_append, List.map_singleton, Function.update_self]
  congr 1
  refine List.map_congr_left fun i hi => ?_
  rw [Function.update_of_ne (Nat.ne_of_lt (List.mem_range.mp hi))]

/-- A command sent is the last of the log. -/
theorem SubscriberConnection.log_send (n : SubscriberConnection) (command : SubscriberCommand)
    (jobs : List Job) : (n.send command jobs).log = n.log ++ [command] :=
  map_range_update n.commands n.sent command

@[simp] theorem SubscriberConnection.answers_send (n : SubscriberConnection)
    (command : SubscriberCommand) (jobs : List Job) : (n.send command jobs).answers = n.answers :=
  rfl

/-- An answer is the last of the answers. -/
theorem SubscriberConnection.answers_process (n : SubscriberConnection) (ok : Bool) :
    (n.process ok).answers = n.answers ++ [ok] :=
  map_range_update n.accepted n.processed ok

/-- A new caller is the last of the callers. -/
theorem Service.targets_addCaller (v : Service) (t : Target) (r : Nat) :
    (v.addCaller t r).targets = v.targets ++ [t] := by
  have hupdate : (fun c => ((v.addCaller t r).callers c).target) =
      Function.update (fun c => (v.callers c).target) v.callerCount t := by
    funext c
    simp only [addCaller, Function.update_apply]
    split <;> rfl
  rw [targets, hupdate]
  exact map_range_update _ _ t

/-- A caller whose number was never used waits; nobody else changes. -/
theorem Service.addCaller_callers {v : Service} (t : Target) (r c : Nat)
    (hphase : (v.callers v.callerCount).phase = .waiting)
    (hreleased : (v.callers v.callerCount).released = false) :
    ((v.addCaller t r).callers c).phase = (v.callers c).phase ∧
    ((v.addCaller t r).callers c).released = (v.callers c).released ∧
    ((v.callers c).phase ≠ .waiting →
      ((v.addCaller t r).callers c).target = (v.callers c).target) := by
  simp only [addCaller, Function.update_apply]
  split
  · rename_i heq
    rw [heq, hphase, hreleased]
    simp
  · simp

@[simp] theorem Service.targets_setRef (v : Service) (t : Target) (r : Nat) :
    (v.setRef t r).targets = v.targets := rfl

@[simp] theorem Service.targets_deleteRef (v : Service) (t : Target) :
    (v.deleteRef t).targets = v.targets := rfl

@[simp] theorem Service.target_setPhase (v : Service) (c c' : Nat) (phase : CallerPhase) :
    ((v.setPhase c phase).callers c').target = (v.callers c').target := by
  simp only [setPhase, Function.update_apply]
  split
  · rename_i heq
    rw [heq]
  · rfl

@[simp] theorem Service.target_release (v : Service) (c c' : Nat) :
    ((v.release c).callers c').target = (v.callers c').target := by
  simp only [release, Function.update_apply]
  split
  · rename_i heq
    rw [heq]
  · rfl

@[simp] theorem Service.targets_setPhase (v : Service) (c : Nat) (phase : CallerPhase) :
    (v.setPhase c phase).targets = v.targets := by
  simp only [targets, target_setPhase]
  rfl

@[simp] theorem Service.targets_release (v : Service) (c : Nat) :
    (v.release c).targets = v.targets := by
  simp only [targets, target_release]
  rfl

/-! ## Joining a subscription -/

/-- Both ways to subscribe are steps of one function, with the kind as
an argument. -/
theorem pubSubStep_join {M : Type} (deps : PubSubDeps M) (s : PubSub) (kind : TargetKind)
    (name : Text) : pubSubStep deps s (kind.join name) = some (s.subscribeTo deps kind name) := by
  cases kind <;> rfl

@[simp] theorem PubSub.await_service (s : PubSub) (command : Nat) (job : Job) :
    (s.await command job).service = s.service := by
  unfold PubSub.await
  split <;> rfl

/-- Awaiting a promise sends and processes nothing. -/
theorem PubSub.await_connection (s : PubSub) (command : Nat) (job : Job) :
    (s.await command job).connection.log = s.connection.log ∧
      (s.await command job).connection.answers = s.connection.answers := by
  unfold PubSub.await
  split <;> exact ⟨rfl, rfl⟩

@[simp] theorem PubSub.joinRef_service (s : PubSub) (t : Target) (r : Nat) :
    (s.joinRef t r).service = s.service.addCaller t r := by
  simp [joinRef]

/-- Joining an entry sends and processes nothing. -/
theorem PubSub.joinRef_connection (s : PubSub) (t : Target) (r : Nat) :
    (s.joinRef t r).connection.log = s.connection.log ∧
      (s.joinRef t r).connection.answers = s.connection.answers :=
  PubSub.await_connection _ _ _

/-- A call joins the current subscription of its target, or sends SUBSCRIBE and
joins the new one. -/
theorem PubSub.subscribeTo_cases {M : Type} (deps : PubSubDeps M) (s : PubSub) (kind : TargetKind)
    {name fullName : Text} (hname : deps.keyBuilder.applyNamespace name = .ok fullName) :
    (∃ r, s.service.refs ⟨kind, fullName⟩ = some r ∧
      s.subscribeTo deps kind name = (s.joinRef ⟨kind, fullName⟩ r, [])) ∨
    (s.service.refs ⟨kind, fullName⟩ = none ∧ ∃ s' : PubSub,
      s'.service = (s.service.setRef ⟨kind, fullName⟩ s.connection.sent).addCaller
        ⟨kind, fullName⟩ s.connection.sent ∧
      s'.connection.log = s.connection.log ++ [⟨.subscribe, ⟨kind, fullName⟩⟩] ∧
      s'.connection.answers = s.connection.answers ∧
      s.subscribeTo deps kind name = (s', [.sent ⟨.subscribe, ⟨kind, fullName⟩⟩])) := by
  cases hr : s.service.refs ⟨kind, fullName⟩ with
  | some r => exact Or.inl ⟨r, rfl, by simp [subscribeTo, hname, ensureRef, hr]⟩
  | none =>
      refine Or.inr ⟨rfl, (s.subscribeTo deps kind name).1, ?_, ?_, ?_, ?_⟩
      · simp [subscribeTo, hname, ensureRef, hr]
      · simp [subscribeTo, hname, ensureRef, hr, joinRef, await_connection,
          SubscriberConnection.log_send]
      · simp [subscribeTo, hname, ensureRef, hr, joinRef, await_connection]
      · simp [subscribeTo, hname, ensureRef, hr]

/-! ## What one step adds to the record -/

/-- What a step from `s` to `s'` with outputs `out` adds to the record. -/
structure RecordStep {M : Type} (deps : PubSubDeps M) (s s' : PubSub) (a : PubSubAction)
    (out : List (PubSubOutput M)) : Prop where
  joined : s'.service.targets = s.service.targets ++ (a.joins deps).toList
  subscribed : ∀ c t, (s'.service.callers c).phase = .listening ∧ (s'.service.callers c).target = t ↔
    (s.service.callers c).phase = .listening ∧ (s.service.callers c).target = t ∨
      .subscribed c t ∈ out
  rejected : ∀ c, (s'.service.callers c).phase = .rejected ↔
    (s.service.callers c).phase = .rejected ∨ .rejected c ∈ out
  released : ∀ c, (s'.service.callers c).released = true ↔
    (s.service.callers c).released = true ∨ a = .unsubscribe c
  detached : ∀ c, .detached c ∈ out ↔
    (s.service.callers c).released = false ∧ a = .unsubscribe c
  sent : s'.connection.log = s.connection.log ++ out.filterMap (·.command)
  answered : s'.connection.answers = s.connection.answers ++ a.answer.toList

/-- The outputs that the record is about. -/
def PubSubOutput.recorded {M : Type} : PubSubOutput M → Bool
  | .sent _ | .subscribed _ _ | .rejected _ | .detached _ => true
  | _ => false

namespace RecordStep

variable {M : Type} {deps : PubSubDeps M} {s s' : PubSub} {a : PubSubAction}
  {out : List (PubSubOutput M)}

/-- A step that leaves the callers, the log and the answers as they are, and
shows nothing of them. -/
theorem frame (hcallers : s'.service.callers = s.service.callers)
    (hcount : s'.service.callerCount = s.service.callerCount)
    (hlog : s'.connection.log = s.connection.log)
    (hanswers : s'.connection.answers = s.connection.answers ++ a.answer.toList)
    (hjoins : a.joins deps = none) (hkeeps : ∀ c, a ≠ .unsubscribe c)
    (hout : ∀ o ∈ out, o.recorded = false) : RecordStep deps s s' a out := by
  have hnot : ∀ o : PubSubOutput M, o.recorded = true → o ∉ out := by
    intro o ho hmem
    rw [hout o hmem] at ho
    cases ho
  have hsent : out.filterMap (·.command) = [] := by
    rw [List.filterMap_eq_nil_iff]
    intro o ho
    cases o with
    | sent command => exact absurd ho (hnot _ rfl)
    | _ => rfl
  refine ⟨?_, ?_, ?_, ?_, ?_, ?_, hanswers⟩
  · simp [Service.targets, hcallers, hcount, hjoins]
  · intro c t
    simp [hcallers, hnot (.subscribed c t) rfl]
  · intro c
    simp [hcallers, hnot (.rejected c) rfl]
  · intro c
    simp [hcallers, hkeeps c]
  · intro c
    simp [hnot (.detached c) rfl, hkeeps c]
  · rw [hlog, hsent, List.append_nil]

/-- A call that joins adds a caller that waits. Its target is added to those of
the calls, and nobody is told anything. -/
theorem addCaller (h : SubscriptionInv s) {v : Service} {target : Target} {r : Nat}
    (hcallers : v.callers = s.service.callers) (hcount : v.callerCount = s.service.callerCount)
    (hservice : s'.service = v.addCaller target r)
    (hlog : s'.connection.log = s.connection.log ++ out.filterMap (·.command))
    (hanswers : s'.connection.answers = s.connection.answers ++ a.answer.toList)
    (hjoins : a.joins deps = some target) (hkeeps : ∀ c, a ≠ .unsubscribe c)
    (hout : ∀ o ∈ out, ∃ command, o = .sent command) : RecordStep deps s s' a out := by
  have hphase : (s.service.callers s.service.callerCount).phase = .waiting := by
    by_contra hphase
    exact absurd (h.refs.known _ hphase) (Nat.lt_irrefl _)
  have hreleased : (s.service.callers s.service.callerCount).released = false := by
    by_contra hreleased
    have hlistening := h.refs.released _ (by simpa using hreleased)
    rw [hphase] at hlistening
    cases hlistening
  have hadd : ∀ c, _ := fun c =>
    v.addCaller_callers target r c (by rwa [hcallers, hcount]) (by rwa [hcallers, hcount])
  simp only [← hservice, hcallers] at hadd
  have hnot : ∀ o : PubSubOutput M, o.command = none → o ∉ out := by
    intro o hnone hmem
    obtain ⟨command, rfl⟩ := hout o hmem
    cases hnone
  refine ⟨?_, ?_, ?_, ?_, ?_, hlog, hanswers⟩
  · rw [hservice, Service.targets_addCaller, hjoins, Service.targets, hcallers, hcount]
    rfl
  · intro c t
    obtain ⟨hsame, -, htarget⟩ := hadd c
    rw [hsame]
    simp only [hnot (.subscribed c t) rfl, or_false]
    refine and_congr_right fun hlistening => ?_
    rw [htarget (by simp [hlistening])]
  · intro c
    rw [(hadd c).1]
    simp [hnot (.rejected c) rfl]
  · intro c
    rw [(hadd c).2.1]
    simp [hkeeps c]
  · intro c
    simp [hnot (.detached c) rfl, hkeeps c]

/-- A `subscribe` or `psubscribe` call adds its caller, unless its name is
refused. -/
theorem join (h : SubscriptionInv s) (kind : TargetKind) (name : Text) :
    RecordStep deps s (s.subscribeTo deps kind name).1 (kind.join name)
      (s.subscribeTo deps kind name).2 := by
  have hkeeps := unsubscribe_ne_join kind name
  cases hname : deps.keyBuilder.applyNamespace name with
  | error e =>
      simp only [PubSub.subscribeTo, hname]
      exact frame rfl rfl rfl (by simp) (by simp [joins_join, hname, Except.toOption]) hkeeps
        (by simp [PubSubOutput.recorded])
  | ok fullName =>
      have hjoins : (kind.join name).joins deps = some ⟨kind, fullName⟩ := by
        simp [joins_join, hname, Except.toOption]
      rcases s.subscribeTo_cases deps kind hname with
        ⟨r, -, heq⟩ | ⟨-, t, hservice, hlog, hanswers, heq⟩
      · rw [heq]
        obtain ⟨hlog, hanswers⟩ := s.joinRef_connection ⟨kind, fullName⟩ r
        exact addCaller (v := s.service) h rfl rfl (s.joinRef_service _ r) (by simpa using hlog)
          (by simpa using hanswers) hjoins hkeeps (by simp)
      · rw [heq]
        exact addCaller (v := s.service.setRef ⟨kind, fullName⟩ s.connection.sent) h rfl rfl
          hservice (by simpa [PubSubOutput.command] using hlog) (by simpa using hanswers) hjoins
          hkeeps (by simp)

/-- The first `Unsubscribe` call of a listener, whatever it sends. It shows as
detached, and is released from then on. -/
theorem release {c : Nat} {more : List (PubSubOutput M)}
    (hrel : (s.service.callers c).released = false)
    (hcallers : s'.service.callers = (s.service.release c).callers)
    (hcount : s'.service.callerCount = s.service.callerCount)
    (hlog : s'.connection.log = s.connection.log ++ more.filterMap (·.command))
    (hanswers : s'.connection.answers = s.connection.answers)
    (hmore : ∀ o ∈ more, ∃ command, o = .sent command) :
    RecordStep deps s s' (.unsubscribe c) (.detached c :: more) := by
  have hnot : ∀ o : PubSubOutput M, o.command = none → o ∉ more := by
    intro o hnone hmem
    obtain ⟨command, rfl⟩ := hmore o hmem
    cases hnone
  have hphase : ∀ c', (s'.service.callers c').phase = (s.service.callers c').phase := by
    intro c'
    simp only [hcallers, Service.release, Function.update_apply]
    split
    · rename_i heq
      rw [heq]
    · rfl
  have htarget : ∀ c', (s'.service.callers c').target = (s.service.callers c').target := by
    intro c'
    rw [hcallers, Service.target_release]
  refine ⟨?_, ?_, ?_, ?_, ?_, ?_, ?_⟩
  · simp [Service.targets, hcount, htarget, PubSubAction.joins]
  · intro c' t
    simp [hphase, htarget, hnot (.subscribed c' t) rfl]
  · intro c'
    simp [hphase, hnot (.rejected c') rfl]
  · intro c'
    simp only [hcallers, Service.release, Function.update_apply, PubSubAction.unsubscribe.injEq]
    grind
  · intro c'
    simp only [List.mem_cons, PubSubOutput.detached.injEq, hnot (.detached c') rfl, or_false,
      PubSubAction.unsubscribe.injEq]
    exact ⟨fun heq => ⟨heq ▸ hrel, heq.symm⟩, fun h => h.2.symm⟩
  · simpa [PubSubOutput.command] using hlog
  · simpa [PubSubAction.answer] using hanswers

/-- An `Unsubscribe` call is remembered; only the first one detaches. The
record of releases is the record of such calls, the first of them and the
later ones alike. -/
theorem unsubscribe (c : Nat) :
    RecordStep deps s (s.unsubscribe (M := M) c).1 (.unsubscribe c) (s.unsubscribe c).2 := by
  unfold PubSub.unsubscribe
  by_cases hrel : (s.service.callers c).released = true
  · rw [if_pos hrel]
    refine ⟨by simp [PubSub.enqueue, PubSubAction.joins], fun c' t => by simp [PubSub.enqueue],
      fun c' => by simp [PubSub.enqueue], fun c' => ?_, fun c' => ?_,
      by simp [PubSub.enqueue, PubSubOutput.command], by simp [PubSub.enqueue, PubSubAction.answer]⟩
    · simp only [PubSub.enqueue, PubSubAction.unsubscribe.injEq]
      exact ⟨Or.inl, fun h => h.elim id fun heq => heq ▸ hrel⟩
    · simp only [List.mem_singleton, reduceCtorEq, PubSubAction.unsubscribe.injEq, false_iff,
        not_and]
      rintro hnot rfl
      rw [hrel] at hnot
      cases hnot
  · rw [if_neg hrel]
    have hrel' : (s.service.callers c).released = false := by simpa using hrel
    simp only [PubSub.releaseSubscription]
    split
    · exact release hrel' rfl rfl
        (by simp [PubSub.detach, SubscriberConnection.log_send, PubSubOutput.command])
        (by simp [PubSub.detach]) (by simp)
    · exact release hrel' rfl rfl (by simp [PubSub.detach, PubSub.enqueue]) rfl (by simp)

/-- A caller that waits is told how its call has ended. What it is told is what
its phase records, with the target of its own call. -/
theorem setPhase {c : Nat} {phase : CallerPhase} {onEvent : Except Thrown Unit}
    (hwaiting : (s.service.callers c).phase = .waiting)
    (hservice : s'.service = s.service.setPhase c phase)
    (hconnection : s'.connection = s.connection)
    (hout : out = [.subscribed c (s.service.callers c).target] ∧ phase = .listening ∨
      out = [.rejected c] ∧ phase = .rejected) :
    RecordStep deps s s' (.microtask onEvent) out := by
  have hphase : ∀ c', (s'.service.callers c').phase =
      if c' = c then phase else (s.service.callers c').phase := by
    intro c'
    simp only [hservice, Service.setPhase, Function.update_apply]
    split <;> rfl
  have hreleased : ∀ c', (s'.service.callers c').released = (s.service.callers c').released := by
    intro c'
    simp only [hservice, Service.setPhase, Function.update_apply]
    grind
  have htarget : ∀ c', (s'.service.callers c').target = (s.service.callers c').target := by
    intro c'
    rw [hservice, Service.target_setPhase]
  refine ⟨?_, ?_, ?_, ?_, ?_, ?_, ?_⟩
  · simp [hservice, PubSubAction.joins]
  · intro c' t
    rw [hphase, htarget]
    grind
  · intro c'
    rw [hphase]
    grind
  · intro c'
    simp [hreleased]
  · intro c'
    rcases hout with ⟨rfl, -⟩ | ⟨rfl, -⟩ <;> simp
  · rcases hout with ⟨rfl, -⟩ | ⟨rfl, -⟩ <;> simp [hconnection, PubSubOutput.command]
  · simp [hconnection, PubSubAction.answer]

/-- A promise job. Only the job that ends a call of `subscribe` adds to
the record. -/
theorem runJob (h : SubscriptionInv s) (onEvent : Except Thrown Unit) {job : Job}
    {rest : List Job} (hqueue : s.queue = job :: rest) :
    RecordStep deps s (({ s with queue := rest } : PubSub).runJob deps onEvent job).1
      (.microtask onEvent) (({ s with queue := rest } : PubSub).runJob deps onEvent job).2 := by
  cases job with
  | dropEntry r =>
      simp only [PubSub.runJob]
      split <;> exact frame rfl rfl rfl (by simp [PubSubAction.answer]) rfl (by simp) (by simp)
  | resumeSubscribe c r =>
      have hjobs := h.jobs
      rw [PubSub.joinJobs_cons hqueue rfl] at hjobs
      obtain ⟨⟨-, hwaiting, -⟩, -⟩ := hjobs.subscribe_job c r (by simp)
      simp only [PubSub.runJob, PubSub.resumeSubscribe]
      split
      · exact setPhase hwaiting rfl rfl (Or.inl ⟨rfl, rfl⟩)
      · exact setPhase hwaiting rfl rfl (Or.inr ⟨rfl, rfl⟩)
  | deliver c event =>
      simp only [PubSub.runJob, PubSub.deliver]
      split <;> exact frame rfl rfl rfl (by simp [PubSubAction.answer, PubSub.enqueue]) rfl
        (by simp) (by simp [PubSubOutput.recorded])
  | report channel error =>
      simp only [PubSub.runJob, PubSub.report_eq]
      exact frame rfl rfl rfl (by simp [PubSubAction.answer]) rfl (by simp)
        (by split <;> simp [PubSubOutput.recorded])
  | _ =>
      exact frame rfl rfl rfl (by simp [PubSubAction.answer, PubSub.runJob, PubSub.enqueue]) rfl
        (by simp) (by simp [PubSub.runJob, PubSubOutput.recorded])

end RecordStep

/-- **Step lemma.**  Every piece of work adds to the record what it does and
shows, and nothing else. -/
theorem recordStep_step {M : Type} {deps : PubSubDeps M} {s s' : PubSub} {a : PubSubAction}
    {out : List (PubSubOutput M)} (h : SubscriptionInv s)
    (hstep : pubSubStep deps s a = some (s', out)) : RecordStep deps s s' a out := by
  cases pubSubStep_moves hstep with
  | join kind name => exact .join h kind name
  | unsubscribe c => exact .unsubscribe c
  | process ok =>
      exact .frame rfl rfl rfl (SubscriberConnection.answers_process _ ok) rfl (by simp) (by simp)
  | settle => exact .frame rfl rfl rfl (by simp [PubSubAction.answer]; rfl) rfl (by simp) (by simp)
  | emit event =>
      exact .frame rfl rfl rfl (by simp [PubSubAction.answer, PubSub.emit]) rfl (by simp)
        (by simp [PubSubOutput.recorded])
  | microtask onEvent job rest hqueue => exact .runJob h onEvent hqueue
  | finish c event outcome =>
      cases outcome <;>
        exact .frame rfl rfl rfl (by simp [PubSubAction.answer, PubSub.finish, PubSub.enqueue]) rfl
          (by simp) (by simp [PubSub.finish, PubSubOutput.recorded])
  | promiseSettles index c event rejection =>
      cases rejection <;>
        exact .frame rfl rfl rfl
          (by simp [PubSubAction.answer, PubSub.promiseSettles, PubSub.enqueue]) rfl (by simp)
          (by simp [PubSub.promiseSettles, PubSubOutput.recorded])

/-! ## The record of a run -/

/-- The state `s` records the run `as` with outputs `out`. -/
structure RecordsRun {M : Type} (deps : PubSubDeps M) (as : List PubSubAction)
    (out : List (PubSubOutput M)) (s : PubSub) : Prop where
  /-- The callers are the calls that were not refused, in order. -/
  joined : s.service.targets = as.filterMap (·.joins deps)
  /-- Who listens was told so. -/
  subscribed : ∀ c t, (s.service.callers c).phase = .listening ∧ (s.service.callers c).target = t ↔
    .subscribed c t ∈ out
  /-- Whose call was rejected was told so. -/
  rejected : ∀ c, (s.service.callers c).phase = .rejected ↔ .rejected c ∈ out
  /-- Released is who has called `Unsubscribe`, once or more often. -/
  released : ∀ c, (s.service.callers c).released = true ↔ .unsubscribe c ∈ as
  /-- The first call has detached the listener. -/
  detached : ∀ c, .detached c ∈ out ↔ .unsubscribe c ∈ as
  /-- The commands are those sent, in order. -/
  sent : s.connection.log = out.filterMap (·.command)
  /-- The answers are those given, in order. -/
  answered : s.connection.answers = as.filterMap (·.answer)

/-- **One more step** is recorded as the run goes on: part by part, from what
the step adds. -/
theorem RecordsRun.step {M : Type} {deps : PubSubDeps M} {as : List PubSubAction}
    {out more : List (PubSubOutput M)} {s s' : PubSub} {a : PubSubAction}
    (h : RecordsRun deps as out s) (hstep : RecordStep deps s s' a more) :
    RecordsRun deps (as ++ [a]) (out ++ more) s' := by
  have hnot : ∀ c, (s.service.callers c).released = false ↔ .unsubscribe c ∉ as := by
    intro c
    rw [← h.released, Bool.not_eq_true]
  refine ⟨?_, ?_, ?_, ?_, ?_, ?_, ?_⟩
  · rw [hstep.joined, h.joined, List.filterMap_append]
    cases hjoins : a.joins deps <;> simp [hjoins]
  · intro c t
    rw [hstep.subscribed, h.subscribed, List.mem_append]
  · intro c
    rw [hstep.rejected, h.rejected, List.mem_append]
  · intro c
    rw [hstep.released, h.released, List.mem_append, List.mem_singleton]
    simp only [eq_comm]
  · intro c
    rw [List.mem_append, List.mem_append, h.detached, hstep.detached, hnot, List.mem_singleton,
      eq_comm]
    tauto
  · rw [hstep.sent, h.sent, List.filterMap_append]
  · rw [hstep.answered, h.answered, List.filterMap_append]
    cases hanswer : a.answer <;> simp [hanswer]

/-- **Run lemma.**  Every reachable state records the run that led to it. -/
theorem recordsRun_run {M : Type} {deps : PubSubDeps M} {as : List PubSubAction} {s : PubSub}
    {out : List (PubSubOutput M)} (h : (pubSubMachine deps).run as = some (s, out)) :
    SubscriptionInv s ∧ RecordsRun deps as out s := by
  refine (pubSubMachine deps).run_induction
    (I := fun as out s => SubscriptionInv s ∧ RecordsRun deps as out s) ?_ ?_ h
  · refine ⟨@subscriptionInv_run M deps [] _ _ rfl, ?_⟩
    constructor <;> simp [pubSubMachine, Service.targets, SubscriberConnection.log,
      SubscriberConnection.answers]
  · rintro hist seen s a s' more ⟨hinv, hrecord⟩ hstep
    exact ⟨subscriptionInv_step hinv hstep, hrecord.step (recordStep_step hinv hstep)⟩

namespace RecordsRun

variable {M : Type} {deps : PubSubDeps M} {as : List PubSubAction} {out : List (PubSubOutput M)}
  {s : PubSub}

/-- A caller comes from a call that asked for its target. The callers are
numbered in the order of the calls that were not refused. -/
theorem joined_call (h : RecordsRun deps as out s) {c : Nat} (hc : c < s.service.callerCount) :
    ∃ name, (s.service.callers c).target.kind.join name ∈ as ∧
      deps.keyBuilder.applyNamespace name = .ok (s.service.callers c).target.name := by
  have hmem : (s.service.callers c).target ∈ s.service.targets :=
    List.mem_map.mpr ⟨c, List.mem_range.mpr hc, rfl⟩
  rw [h.joined] at hmem
  obtain ⟨a, ha, hjoins⟩ := List.mem_filterMap.mp hmem
  have hname : ∀ {kind name}, (deps.keyBuilder.applyNamespace name).toOption.map (Target.mk kind) =
      some (s.service.callers c).target → kind = (s.service.callers c).target.kind ∧
        deps.keyBuilder.applyNamespace name = .ok (s.service.callers c).target.name := by
    intro kind name heq
    cases happly : deps.keyBuilder.applyNamespace name with
    | error e => simp [happly, Except.toOption] at heq
    | ok fullName =>
        simp only [happly, Except.toOption, Option.map_some, Option.some.injEq] at heq
        rw [← heq]
        exact ⟨rfl, rfl⟩
  cases a with
  | subscribe channel =>
      obtain ⟨hkind, happly⟩ := hname hjoins
      rw [← hkind]
      exact ⟨channel, ha, happly⟩
  | psubscribe pattern =>
      obtain ⟨hkind, happly⟩ := hname hjoins
      rw [← hkind]
      exact ⟨pattern, ha, happly⟩
  | _ => cases hjoins

/-- Who was told that it is subscribed is a caller, and of that target. -/
theorem caller_of_subscribed (h : RecordsRun deps as out s) (hinv : SubscriptionInv s) {c : Nat}
    {t : Target} (hmem : .subscribed c t ∈ out) :
    c < s.service.callerCount ∧ (s.service.callers c).target = t := by
  obtain ⟨hlistening, htarget⟩ := (h.subscribed c t).mpr hmem
  exact ⟨hinv.refs.known c (by simp [hlistening]), htarget⟩

end RecordsRun

end NestCache
