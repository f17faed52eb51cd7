import NestCache.SubscriptionJobs

/-!
# The invariant of subscriptions

The reference counts follow the callers, and the commands follow the counts.
Both halves of the invariant (`RefInv` and `JobInv`) are kept by every piece of
work of the service, and so hold of every run.

* `subscriptionInv_step` — every step keeps the invariant;
* `subscriptionInv_run` — every reachable state has it.
-/

namespace NestCache

/-- The queued jobs of `subscribe` and `psubscribe` calls. -/
def PubSub.joinJobs (s : PubSub) : List Job := s.queue.filter Job.joins

/-- A job of a subscribing call at the head of the queue is the first of
such jobs. -/
theorem PubSub.joinJobs_cons {s : PubSub} {job : Job} {rest : List Job}
    (hqueue : s.queue = job :: rest) (hjoins : job.joins = true) :
    s.joinJobs = job :: rest.filter Job.joins := by
  rw [joinJobs, hqueue, List.filter_cons_of_pos hjoins]

/-- The invariant of the service. -/
structure SubscriptionInv (s : PubSub) : Prop where
  refs : RefInv s.service s.connection (s.connection.Dropped s.joinJobs)
  jobs : JobInv s.service s.connection s.joinJobs

namespace SubscriptionInv

variable {s s' : PubSub}

/-- Listeners, handlers and the jobs of deliveries and unsubscriptions do not
matter. -/
theorem frame (h : SubscriptionInv s) (hservice : s'.service = s.service)
    (hconnection : s'.connection = s.connection) (hjobs : s'.joinJobs = s.joinJobs) :
    SubscriptionInv s' := by
  refine ⟨?_, ?_⟩
  · rw [hservice, hconnection, hjobs]
    exact h.refs
  · rw [hservice, hconnection, hjobs]
    exact h.jobs

/-- A waiting caller joined a command that was sent. -/
theorem waits_lt (h : SubscriptionInv s) {c r : Nat} (hwaits : s.service.Waits c r) :
    r < s.connection.sent := by
  rw [← hwaits.2.2]
  exact (h.refs.joined c hwaits.1).1

/-- **Finding or creating the reference** of a target keeps the invariant, and
the target has that reference then. -/
theorem ensureRef (h : SubscriptionInv s) (t : Target) {M : Type} :
    SubscriptionInv (s.ensureRef (M := M) t).1 ∧
      (s.ensureRef (M := M) t).1.service.refs t = some (s.ensureRef (M := M) t).2.1 := by
  cases hr : s.service.refs t with
  | some r => simpa [PubSub.ensureRef, hr] using h
  | none =>
      have hunsettled := h.jobs.unsettled_sent
      simp only [PubSub.ensureRef, hr]
      refine ⟨⟨h.refs.setRef hr ?_ _, ?_⟩, by simp [Service.setRef]⟩
      · intro hdropped
        have hsettled := hdropped.1.1
        rw [hunsettled] at hsettled
        cases hsettled
      · refine (h.jobs.send (fun c r hwaits => h.waits_lt hwaits) (fun _ => ?_)
          (by simp)).congr ?_
        · exact ⟨[], rfl, List.nodup_nil, by simp⟩
        · exact fun c r => Iff.rfl

/-- **Joining a reference** keeps the invariant: one holder more, who waits
for the command of the reference or goes on at once if it is settled. -/
theorem joinRef (h : SubscriptionInv s) {t : Target} {r : Nat} (hr : s.service.refs t = some r) :
    SubscriptionInv (s.joinRef t r) := by
  obtain ⟨hlt, hcommand, -⟩ := h.refs.current t r hr
  unfold PubSub.joinRef PubSub.await
  by_cases hsettled : s.connection.settled r = true
  · rw [if_pos hsettled]
    have hjobs : (s.queue ++ [Job.resumeRetain s.service.callerCount r]).filter Job.joins =
        s.joinJobs ++ [Job.resumeRetain s.service.callerCount r] := by
      simp [PubSub.joinJobs, Job.joins]
    refine ⟨?_, ?_⟩
    · refine (h.refs.addCaller hr).congr rfl rfl (fun _ => Iff.rfl) fun r' _ => ?_
      simp [PubSub.enqueue, PubSub.joinJobs, SubscriberConnection.Dropped, Job.joins]
    · have hjoin := h.jobs.join_settled (t := t) hsettled
      rw [← hjobs] at hjoin
      exact hjoin
  · rw [if_neg hsettled]
    refine ⟨(h.refs.addCaller hr).congr rfl rfl (fun _ => Iff.rfl) fun _ _ => Iff.rfl, ?_⟩
    exact h.jobs.join_pending (by rw [hcommand]) (by simpa using hsettled)

/-- A call of `subscribe` or `psubscribe` keeps the invariant, also where its
name is refused. -/
theorem subscribeTo {M : Type} (h : SubscriptionInv s) (deps : PubSubDeps M) (kind : TargetKind)
    (name : Text) : SubscriptionInv (s.subscribeTo deps kind name).1 := by
  unfold PubSub.subscribeTo
  cases deps.keyBuilder.applyNamespace name with
  | error e => exact h
  | ok fullName =>
      obtain ⟨hensured, href⟩ := h.ensureRef (M := M) ⟨kind, fullName⟩
      exact hensured.joinRef href

/-- The first `Unsubscribe` call. The caller is released, and UNSUBSCRIBE is
sent for the target if nobody else holds its subscription. -/
theorem unsubscribe {M : Type} (h : SubscriptionInv s) {c : Nat}
    (hlistening : (s.service.callers c).phase = .listening) :
    SubscriptionInv (s.unsubscribe (M := M) c).1 := by
  have hc := h.refs.known c (by simp [hlistening])
  unfold PubSub.unsubscribe
  by_cases hrel : (s.service.callers c).released = true
  · rw [if_pos hrel]
    exact h.frame rfl rfl (by simp [PubSub.joinJobs, PubSub.enqueue, Job.joins])
  · rw [if_neg hrel]
    have hrel' : (s.service.callers c).released = false := by simpa using hrel
    have hgranted := h.refs.listening c hlistening
    have hcurrent : s.service.refs (s.service.callers c).target = some (s.service.callers c).ref :=
      (h.refs.kept c hc hrel').resolve_right hgranted.not_dropped
    have hwaits : ∀ c' r, (s.service.release c).Waits c' r ↔ s.service.Waits c' r := by
      intro c' r
      simp only [Service.Waits, Service.release, Function.update_apply]
      grind
    have hrefs := h.refs.release hlistening hrel'
    have hjobs := h.jobs.congr hwaits
    have hcaller : ((s.detach c).service.callers c).target = (s.service.callers c).target ∧
        ((s.detach c).service.callers c).ref = (s.service.callers c).ref := by
      simp [PubSub.detach, Service.release]
    simp only [PubSub.releaseSubscription, hcaller.1, hcaller.2]
    split
    · rename_i hzero
      refine ⟨hrefs.deleteRef hcurrent hgranted hzero _, ?_⟩
      refine (hjobs.send (fun c' r hw => h.waits_lt ((hwaits c' r).mp hw)) (by simp) ?_).congr ?_
      · simp [Job.joins]
      · exact fun _ _ => Iff.rfl
    · refine (SubscriptionInv.mk hrefs hjobs : SubscriptionInv (s.detach c)).frame rfl rfl ?_
      simp [PubSub.joinJobs, PubSub.enqueue, Job.joins]

/-- The server processes a command. -/
theorem process (h : SubscriptionInv s) (hlt : s.connection.processed < s.connection.sent)
    (ok : Bool) : SubscriptionInv { s with connection := s.connection.process ok } := by
  -- what has settled was processed before
  have hkeep : ∀ r, s.connection.settled r = true →
      (s.connection.process ok).accepted r = s.connection.accepted r := by
    intro r hr
    have hne : r ≠ s.connection.processed := Nat.ne_of_lt (h.jobs.settled_lt r hr)
    simp [SubscriberConnection.process, hne]
  refine ⟨h.refs.congr rfl rfl ?_ ?_, h.jobs.process hlt ok⟩
  · intro r
    exact and_congr_right fun hr => by rw [hkeep r hr]
  · intro r _
    exact and_congr_left fun _ => and_congr_right fun hr => by rw [hkeep r hr]

/-- A reply settles the promise of a command. The reactions of the command are
queued in the order in which they were added, the one that drops the entry
first. -/
theorem settle (h : SubscriptionInv s) {r : Nat} (hlt : r < s.connection.processed)
    (hunsettled : s.connection.settled r = false) :
    SubscriptionInv { s with
      connection := s.connection.settle r
      queue := s.queue ++ s.connection.reactions r } := by
  have hsent := Nat.lt_of_lt_of_le hlt h.jobs.processed_le
  have hjobs : (s.queue ++ s.connection.reactions r).filter Job.joins =
      s.joinJobs ++ (s.connection.reactions r).filter Job.joins := List.filter_append ..
  refine ⟨?_, ?_⟩
  · have hdropped : ∀ r', (s.connection.commands r').kind = .subscribe →
        ((s.connection.settle r).Dropped
          ((s.queue ++ s.connection.reactions r).filter Job.joins) r' ↔
          s.connection.Dropped s.joinJobs r') := by
      intro r' hkind
      rw [hjobs]
      exact h.jobs.dropped_settle hsent hunsettled hkind
    cases hacc : s.connection.accepted r with
    | true =>
        have hgrant : RefInv s.service (s.connection.settle r)
            (s.connection.Dropped s.joinJobs) := by
          refine h.refs.grant (r := r) rfl rfl fun r' => ?_
          simp only [SubscriberConnection.Granted, SubscriberConnection.settle,
            Function.update_apply]
          grind
        exact hgrant.congr rfl rfl (fun _ => Iff.rfl) hdropped
    | false =>
        refine h.refs.congr rfl rfl (fun r' => ?_) hdropped
        simp only [SubscriberConnection.Granted, SubscriberConnection.settle,
          Function.update_apply]
        grind
  · have hsettle := h.jobs.settle hlt hunsettled
    rw [← hjobs] at hsettle
    exact hsettle

/-- A promise job. The jobs of a subscribing call drop an entry, go on to
`subscribe`, or tell the caller; the others touch no entry. -/
theorem runJob {M : Type} (h : SubscriptionInv s) (deps : PubSubDeps M)
    (onEvent : Except Thrown Unit) {job : Job} {rest : List Job} (hqueue : s.queue = job :: rest) :
    SubscriptionInv (({ s with queue := rest } : PubSub).runJob deps onEvent job).1 := by
  have hrest : ∀ {j}, s.queue = j :: rest → j.joins = false →
      SubscriptionInv { s with queue := rest } := by
    intro j hj hjoins
    exact h.frame rfl rfl (by simp [PubSub.joinJobs, hj, hjoins])
  have hrefs := h.refs
  have hjobs := h.jobs
  cases job with
  | dropEntry r =>
      rw [PubSub.joinJobs_cons hqueue rfl] at hrefs hjobs
      obtain ⟨hlt, hkind, hsettled⟩ := hjobs.drop_job r (by simp)
      have honce : .dropEntry r ∉ rest.filter Job.joins := fun hmem =>
        (((List.pairwise_cons.mp hjobs.order).1 _ hmem).1 r rfl).1 rfl
      by_cases hacc : s.connection.accepted r = true
      · simp only [PubSub.runJob, if_pos hacc]
        refine ⟨hrefs.congr rfl rfl (fun _ => Iff.rfl) fun r' _ => ?_, hjobs.pop_drop⟩
        simp only [SubscriberConnection.Dropped, SubscriberConnection.Refused, PubSub.joinJobs,
          List.mem_cons, Job.dropEntry.injEq]
        grind
      · simp only [PubSub.runJob, if_neg hacc]
        have hopen : s.service.refs (s.connection.commands r).target = some r := by
          rcases hrefs.opened r hlt hkind with hgranted | hdropped | hopen
          · exact absurd hgranted.2 hacc
          · exact absurd List.mem_cons_self hdropped.2
          · exact hopen
        refine ⟨hrefs.dropEntry hopen fun r' => ?_, hjobs.pop_drop.congr fun _ _ => Iff.rfl⟩
        simp only [SubscriberConnection.Dropped, SubscriberConnection.Refused, PubSub.joinJobs,
          List.mem_cons, Job.dropEntry.injEq]
        grind
  | resumeRetain c r =>
      rw [PubSub.joinJobs_cons hqueue rfl] at hrefs hjobs
      have hsnoc : (rest ++ [Job.resumeSubscribe c r]).filter Job.joins =
          rest.filter Job.joins ++ [Job.resumeSubscribe c r] := by
        simp [Job.joins]
      have hpop := hjobs.pop_retain
      rw [← hsnoc] at hpop
      refine ⟨hrefs.congr rfl rfl (fun _ => Iff.rfl) fun r' _ => ?_, hpop⟩
      simp [SubscriberConnection.Dropped, PubSub.joinJobs, PubSub.enqueue, PubSub.runJob,
        Job.joins]
  | resumeSubscribe c r =>
      rw [PubSub.joinJobs_cons hqueue rfl] at hrefs hjobs
      obtain ⟨⟨hlt, hwaiting, href⟩, hsettled, hnodrop⟩ := hjobs.subscribe_job c r (by simp)
      have hrefs' : RefInv s.service s.connection
          (s.connection.Dropped (rest.filter Job.joins)) :=
        hrefs.congr rfl rfl (fun _ => Iff.rfl) fun r' _ => by
          simp [SubscriberConnection.Dropped]
      simp only [PubSub.runJob, PubSub.resumeSubscribe]
      split
      · rename_i hacc
        refine ⟨hrefs'.setPhase hlt hwaiting (fun _ => ?_) (by simp), hjobs.pop_subscribe (by simp)⟩
        rw [href]
        exact ⟨hsettled, hacc⟩
      · rename_i hacc
        refine ⟨hrefs'.setPhase hlt hwaiting (by simp) (fun _ => ?_), hjobs.pop_subscribe (by simp)⟩
        rw [href]
        exact ⟨⟨hsettled, by simpa using hacc⟩, by simpa using hnodrop⟩
  | resumeRelease c r =>
      exact (hrest hqueue rfl).frame rfl rfl
        (by simp [PubSub.runJob, PubSub.joinJobs, PubSub.enqueue, Job.joins])
  | resumeUnsubscribe c ok =>
      exact (hrest hqueue rfl).frame rfl rfl
        (by simp [PubSub.runJob, PubSub.joinJobs, PubSub.enqueue, Job.joins])
  | resumeAwait c => exact hrest hqueue rfl
  | deliver c event =>
      simp only [PubSub.runJob, PubSub.deliver]
      split
      · exact (hrest hqueue rfl).frame rfl rfl
          (by simp [PubSub.joinJobs, PubSub.enqueue, Job.joins])
      · exact (hrest hqueue rfl).frame rfl rfl rfl
  | report channel error =>
      simp only [PubSub.runJob, PubSub.report]
      split <;> exact hrest hqueue rfl

end SubscriptionInv

/-- **Step lemma.** Every piece of work keeps the invariant. The cases are the
moves of the service, each with the lemma on the function that it runs. -/
theorem subscriptionInv_step {M : Type} {deps : PubSubDeps M} {s s' : PubSub} {a : PubSubAction}
    {out : List (PubSubOutput M)} (h : SubscriptionInv s)
    (hstep : pubSubStep deps s a = some (s', out)) : SubscriptionInv s' := by
  cases pubSubStep_moves hstep with
  | join kind name => exact h.subscribeTo deps kind name
  | unsubscribe c hlistening => exact h.unsubscribe hlistening
  | process ok hlt => exact h.process hlt ok
  | settle r hlt hunsettled => exact h.settle hlt hunsettled
  | emit event =>
      refine h.frame rfl rfl ?_
      have hnone : (((s.listeners.filter fun c =>
          (s.service.callers c).target = event.target).map (Job.deliver · event)).filter
          Job.joins) = [] := by
        rw [List.filter_eq_nil_iff]
        intro j hj
        obtain ⟨c, -, rfl⟩ := List.mem_map.mp hj
        simp [Job.joins]
      rw [PubSub.joinJobs, PubSub.emit, List.filter_append, hnone, List.append_nil]
      rfl
  | microtask onEvent job rest hqueue => exact h.runJob deps onEvent hqueue
  | finish c event outcome =>
      cases outcome <;> refine h.frame rfl rfl ?_ <;>
        simp [PubSub.finish, PubSub.joinJobs, PubSub.enqueue, Job.joins]
  | promiseSettles index c event rejection =>
      cases rejection <;> refine h.frame rfl rfl ?_ <;>
        simp [PubSub.promiseSettles, PubSub.joinJobs, PubSub.enqueue, Job.joins]

/-- The invariant holds in every reachable state. -/
theorem subscriptionInv_run {M : Type} {deps : PubSubDeps M} {as : List PubSubAction}
    {s : PubSub} {out : List (PubSubOutput M)}
    (h : (pubSubMachine deps).run as = some (s, out)) : SubscriptionInv s := by
  refine (pubSubMachine deps).invariant ?_ (fun s a s' out hs hstep =>
    subscriptionInv_step hs hstep) h
  constructor
  · constructor <;> simp [pubSubMachine, Service.holders]
  · constructor <;> simp [pubSubMachine, PubSub.joinJobs, Service.Waits]

end NestCache
