import NestCache.SubscriptionEntries

/-!
# Promise jobs of subscriptions

The other half of the invariant behind subscription safety: where the promise
job of every waiting caller is, and in which order the jobs stand (`JobInv`).
The keystone is `order`: the reaction that drops a rejected entry stands before
every job that tells one of its callers.
-/

namespace NestCache

/-! ## Promise jobs -/

/-- The jobs of a `subscribe` or `psubscribe` call. -/
def Job.joins : Job → Bool
  | dropEntry _ | resumeRetain _ _ | resumeSubscribe _ _ => true
  | _ => false

/-- The caller whose call the job resumes. -/
def Job.joiner : Job → Option Nat
  | resumeRetain caller _ | resumeSubscribe caller _ => some caller
  | _ => none

/-- No entry is dropped twice or after one of its callers went on, and no
caller goes on twice. -/
def Job.InOrder (j k : Job) : Prop :=
  (∀ r, k = dropEntry r → j ≠ dropEntry r ∧ ∀ c, j ≠ resumeRetain c r) ∧
  ∀ c, j.joiner = some c → k.joiner ≠ some c

/-- The caller joined the subscription and has not gone on. -/
def Service.Waits (v : Service) (caller ref : Nat) : Prop :=
  caller < v.callerCount ∧ (v.callers caller).phase = .waiting ∧ (v.callers caller).ref = ref

/-- The reactions on the promise of a SUBSCRIBE: its entry is dropped first,
then its callers go on. -/
def JoinReactions (v : Service) (ref : Nat) (jobs : List Job) : Prop :=
  ∃ cs : List Nat, jobs = .dropEntry ref :: cs.map (Job.resumeRetain · ref) ∧ cs.Nodup ∧
    ∀ c ∈ cs, v.Waits c ref

/-- Where the promise jobs of the waiting callers are, among the queued `jobs`
and the reactions of commands that have not settled. -/
structure JobInv (v : Service) (n : SubscriberConnection) (jobs : List Job) : Prop where
  processed_le : n.processed ≤ n.sent
  settled_lt : ∀ r, n.settled r = true → r < n.processed
  drop_job : ∀ r, .dropEntry r ∈ jobs →
    r < n.sent ∧ (n.commands r).kind = .subscribe ∧ n.settled r = true
  retain_job : ∀ c r, .resumeRetain c r ∈ jobs → v.Waits c r ∧ n.settled r = true
  subscribe_job : ∀ c r, .resumeSubscribe c r ∈ jobs →
    v.Waits c r ∧ n.settled r = true ∧ .dropEntry r ∉ jobs
  order : jobs.Pairwise Job.InOrder
  join_reactions : ∀ r < n.sent, n.settled r = false → (n.commands r).kind = .subscribe →
    JoinReactions v r (n.reactions r)
  other_reactions : ∀ r < n.sent, n.settled r = false → (n.commands r).kind = .unsubscribe →
    (n.reactions r).filter Job.joins = []
  waiting : ∀ c r, v.Waits c r →
    n.settled r = false ∧ .resumeRetain c r ∈ n.reactions r ∨
      .resumeRetain c r ∈ jobs ∨ .resumeSubscribe c r ∈ jobs

namespace JobInv

variable {v v' : Service} {n n' : SubscriberConnection} {jobs : List Job}

/-- Only who waits for what matters. The jobs themselves are not looked
into. -/
theorem congr (h : JobInv v n jobs) (hwaits : ∀ c r, v'.Waits c r ↔ v.Waits c r) :
    JobInv v' n jobs where
  processed_le := h.processed_le
  settled_lt := h.settled_lt
  drop_job := h.drop_job
  retain_job := by
    simp only [hwaits]
    exact h.retain_job
  subscribe_job := by
    simp only [hwaits]
    exact h.subscribe_job
  order := h.order
  join_reactions := by
    simp only [JoinReactions, hwaits]
    exact h.join_reactions
  other_reactions := h.other_reactions
  waiting := by
    simp only [hwaits]
    exact h.waiting

/-- The next command has not settled. -/
theorem unsettled_sent (h : JobInv v n jobs) : n.settled n.sent = false := by
  by_contra hne
  have := h.settled_lt n.sent (by simpa using hne)
  have := h.processed_le
  omega

/-- A command is sent; its reactions are those of its kind. A SUBSCRIBE
starts with the reaction that drops its entry, and an UNSUBSCRIBE with none
of these. -/
theorem send (h : JobInv v n jobs) (hjoined : ∀ c r, v.Waits c r → r < n.sent)
    {command : SubscriberCommand} {reactions : List Job}
    (hsubscribe : command.kind = .subscribe → JoinReactions v n.sent reactions)
    (hother : command.kind = .unsubscribe → reactions.filter Job.joins = []) :
    JobInv v (n.send command reactions) jobs where
  processed_le := Nat.le_succ_of_le h.processed_le
  settled_lt := h.settled_lt
  drop_job := by
    intro r hr
    have hdrop := h.drop_job r hr
    simp only [SubscriberConnection.send, Function.update_apply] at *
    grind
  retain_job := h.retain_job
  subscribe_job := h.subscribe_job
  order := h.order
  join_reactions := by
    intro r hr hsettled hkind
    have hold := h.join_reactions r
    simp only [SubscriberConnection.send, Function.update_apply] at *
    grind
  other_reactions := by
    intro r hr hsettled hkind
    have hold := h.other_reactions r
    simp only [SubscriberConnection.send, Function.update_apply] at *
    grind
  waiting := by
    intro c r hwaits
    have hold := h.waiting c r hwaits
    have hlt := hjoined c r hwaits
    simp only [SubscriberConnection.send, Function.update_apply] at *
    grind

/-- The server processes a command. -/
theorem process (h : JobInv v n jobs) (hlt : n.processed < n.sent) (ok : Bool) :
    JobInv v (n.process ok) jobs where
  processed_le := hlt
  settled_lt := fun r hr => Nat.lt_succ_of_lt (h.settled_lt r hr)
  drop_job := h.drop_job
  retain_job := h.retain_job
  subscribe_job := h.subscribe_job
  order := h.order
  join_reactions := h.join_reactions
  other_reactions := h.other_reactions
  waiting := h.waiting

/-- A queued job that resumes a caller belongs to a settled promise. -/
theorem settled_of_joiner (h : JobInv v n jobs) {j : Job} (hj : j ∈ jobs) {c : Nat}
    (hc : j.joiner = some c) : ∃ r, v.Waits c r ∧ n.settled r = true := by
  cases j with
  | resumeRetain c' r =>
      obtain rfl : c' = c := by simpa [Job.joiner] using hc
      exact ⟨r, h.retain_job c' r hj⟩
  | resumeSubscribe c' r =>
      obtain rfl : c' = c := by simpa [Job.joiner] using hc
      obtain ⟨hwaits, hset, -⟩ := h.subscribe_job c' r hj
      exact ⟨r, hwaits, hset⟩
  | _ => simp [Job.joiner] at hc

/-- What the promise of a command queues when it settles. These are the
job that drops the entry and those of the callers that wait, each for its
own caller. -/
theorem settle_reactions (h : JobInv v n jobs) {r : Nat} (hlt : r < n.sent)
    (hunsettled : n.settled r = false) :
    (∀ j ∈ (n.reactions r).filter Job.joins, (n.commands r).kind = .subscribe ∧
      (j = .dropEntry r ∨ ∃ c, j = .resumeRetain c r ∧ v.Waits c r)) ∧
    ((n.reactions r).filter Job.joins).Pairwise Job.InOrder := by
  cases hkind : (n.commands r).kind with
  | unsubscribe => simp [h.other_reactions r hlt hunsettled hkind]
  | subscribe =>
      obtain ⟨cs, hjobs, hnodup, hcs⟩ := h.join_reactions r hlt hunsettled hkind
      constructor
      · intro j hj
        have hmem := (List.mem_filter.mp hj).1
        rw [hjobs] at hmem
        rcases List.mem_cons.mp hmem with hdrop | hmem
        · exact ⟨rfl, Or.inl hdrop⟩
        · obtain ⟨c, hc, rfl⟩ := List.mem_map.mp hmem
          exact ⟨rfl, Or.inr ⟨c, rfl, hcs c hc⟩⟩
      · rw [hjobs]
        refine List.Pairwise.filter _ (List.pairwise_cons.mpr ⟨?_, ?_⟩)
        · simp [Job.InOrder, Job.joiner]
        · rw [List.pairwise_map]
          exact hnodup.imp fun hne => by simpa [Job.InOrder, Job.joiner, eq_comm] using hne

/-- The promise of a command settles and its reactions are queued. The job
that drops the entry is in front of the callers' jobs, so they find the entry
gone. -/
theorem settle (h : JobInv v n jobs) {r : Nat} (hlt : r < n.processed)
    (hunsettled : n.settled r = false) :
    JobInv v (n.settle r) (jobs ++ (n.reactions r).filter Job.joins) := by
  have hsent : r < n.sent := Nat.lt_of_lt_of_le hlt h.processed_le
  have hsettled : ∀ r', (n.settle r).settled r' = true ↔ n.settled r' = true ∨ r' = r := by
    intro r'
    simp only [SubscriberConnection.settle, Function.update_apply]
    grind
  obtain ⟨hqueued, hinner⟩ := h.settle_reactions hsent hunsettled
  refine ⟨h.processed_le, ?_, ?_, ?_, ?_, ?_, ?_, ?_, ?_⟩
  · intro r' hr'
    rcases (hsettled r').mp hr' with hold | rfl
    · exact h.settled_lt r' hold
    · exact hlt
  · intro r' hr'
    rw [hsettled]
    rcases List.mem_append.mp hr' with hold | hnew
    · obtain ⟨hlt', hkind, hset⟩ := h.drop_job r' hold
      exact ⟨hlt', hkind, Or.inl hset⟩
    · obtain ⟨hkind, hjob⟩ := hqueued _ hnew
      have heq : r' = r := by simpa using hjob
      exact ⟨heq ▸ hsent, heq ▸ hkind, Or.inr heq⟩
  · intro c r' hc
    rw [hsettled]
    rcases List.mem_append.mp hc with hold | hnew
    · exact (h.retain_job c r' hold).imp_right Or.inl
    · obtain ⟨-, hjob⟩ := hqueued _ hnew
      rcases hjob with hjob | ⟨c', hjob, hwaits⟩
      · cases hjob
      · cases hjob
        exact ⟨hwaits, Or.inr rfl⟩
  · intro c r' hc
    rw [hsettled]
    rcases List.mem_append.mp hc with hold | hnew
    · obtain ⟨hwaits, hset, hnot⟩ := h.subscribe_job c r' hold
      refine ⟨hwaits, Or.inl hset, fun hmem => ?_⟩
      rcases List.mem_append.mp hmem with hmem | hmem
      · exact hnot hmem
      · have heq : r' = r := by simpa using (hqueued _ hmem).2
        rw [heq, hunsettled] at hset
        cases hset
    · simpa using (hqueued _ hnew).2
  · refine List.pairwise_append.mpr ⟨h.order, hinner, fun j hj k hk => ?_⟩
    -- a queued job belongs to a settled promise, a reaction to this one
    rcases (hqueued k hk).2 with rfl | ⟨c, rfl, hwaits⟩
    · refine ⟨?_, by simp [Job.joiner]⟩
      rintro r' ⟨⟩
      constructor
      · rintro rfl
        have hset := (h.drop_job r hj).2.2
        rw [hunsettled] at hset
        cases hset
      · rintro c rfl
        have hset := (h.retain_job c r hj).2
        rw [hunsettled] at hset
        cases hset
    · refine ⟨nofun, fun c' hj' hc' => ?_⟩
      obtain rfl : c = c' := by simpa [Job.joiner] using hc'
      obtain ⟨r', hwaits', hset⟩ := h.settled_of_joiner hj hj'
      rw [← hwaits'.2.2, hwaits.2.2, hunsettled] at hset
      cases hset
  · intro r' hlt' hset hkind
    refine h.join_reactions r' hlt' ?_ hkind
    have := hsettled r'
    grind
  · intro r' hlt' hset hkind
    refine h.other_reactions r' hlt' ?_ hkind
    have := hsettled r'
    grind
  · intro c r' hwaits
    rcases h.waiting c r' hwaits with ⟨hset, hreact⟩ | hmem | hmem
    · by_cases heq : r' = r
      · subst heq
        refine Or.inr (Or.inl (List.mem_append_right _ ?_))
        exact List.mem_filter.mpr ⟨hreact, rfl⟩
      · refine Or.inl ⟨?_, hreact⟩
        have := hsettled r'
        grind
    · exact Or.inr (Or.inl (List.mem_append_left _ hmem))
    · exact Or.inr (Or.inr (List.mem_append_left _ hmem))

/-- Who waits after a caller has joined. -/
theorem waits_addCaller (v : Service) (t : Target) (r c r' : Nat) :
    (v.addCaller t r).Waits c r' ↔ v.Waits c r' ∨ c = v.callerCount ∧ r' = r := by
  simp only [Service.Waits, Service.addCaller, Function.update_apply]
  grind

/-- A caller joins a subscription whose promise is pending. Its job is added
behind the reactions of those who came before. -/
theorem join_pending (h : JobInv v n jobs) {t : Target} {r : Nat}
    (hkind : (n.commands r).kind = .subscribe) (hunsettled : n.settled r = false) :
    JobInv (v.addCaller t r) (n.react r (.resumeRetain v.callerCount r)) jobs where
  processed_le := h.processed_le
  settled_lt := h.settled_lt
  drop_job := h.drop_job
  retain_job := by
    intro c r' hc
    rw [waits_addCaller]
    exact (h.retain_job c r' hc).imp_left Or.inl
  subscribe_job := by
    intro c r' hc
    rw [waits_addCaller]
    exact (h.subscribe_job c r' hc).imp_left Or.inl
  order := h.order
  join_reactions := by
    intro r' hlt' hset hkind'
    obtain ⟨cs, hjobs, hnodup, hcs⟩ := h.join_reactions r' hlt' hset hkind'
    simp only [JoinReactions, waits_addCaller]
    by_cases heq : r' = r
    · subst heq
      refine ⟨cs ++ [v.callerCount], by simp [SubscriberConnection.react, hjobs], ?_, ?_⟩
      · refine List.nodup_append.mpr ⟨hnodup, by simp, ?_⟩
        rintro c hc c' hc' rfl
        have := (hcs c hc).1
        have := List.mem_singleton.mp hc'
        omega
      · intro c hc
        rcases List.mem_append.mp hc with hc | hc
        · exact Or.inl (hcs c hc)
        · exact Or.inr ⟨List.mem_singleton.mp hc, rfl⟩
    · refine ⟨cs, ?_, hnodup, fun c hc => Or.inl (hcs c hc)⟩
      simp [SubscriberConnection.react, heq, hjobs]
  other_reactions := by
    intro r' hlt' hset hkind'
    have hne : r' ≠ r := by
      rintro rfl
      have hboth := hkind.symm.trans hkind'
      cases hboth
    simpa [SubscriberConnection.react, hne] using h.other_reactions r' hlt' hset hkind'
  waiting := by
    intro c r' hwaits
    simp only [SubscriberConnection.react, Function.update_apply]
    rcases (waits_addCaller v t r c r').mp hwaits with hold | ⟨rfl, rfl⟩
    · refine (h.waiting c r' hold).imp_left (And.imp_right fun hmem => ?_)
      split
      · subst r'
        exact List.mem_append_left _ hmem
      · exact hmem
    · exact Or.inl ⟨hunsettled, by simp⟩

/-- A caller joins a subscription whose promise has settled. Its job is queued
at once, behind those that are queued already. -/
theorem join_settled (h : JobInv v n jobs) {t : Target} {r : Nat} (hsettled : n.settled r = true) :
    JobInv (v.addCaller t r) n (jobs ++ [.resumeRetain v.callerCount r]) where
  processed_le := h.processed_le
  settled_lt := h.settled_lt
  drop_job := by
    intro r' hr'
    exact h.drop_job r' (by simpa using hr')
  retain_job := by
    intro c r' hc
    rw [waits_addCaller]
    rcases List.mem_append.mp hc with hold | hnew
    · exact (h.retain_job c r' hold).imp_left Or.inl
    · obtain ⟨rfl, rfl⟩ : c = v.callerCount ∧ r' = r := by simpa using hnew
      exact ⟨Or.inr ⟨rfl, rfl⟩, hsettled⟩
  subscribe_job := by
    intro c r' hc
    rw [waits_addCaller]
    obtain ⟨hwaits, hset, hnot⟩ := h.subscribe_job c r' (by simpa using hc)
    exact ⟨Or.inl hwaits, hset, by simpa using hnot⟩
  order := by
    refine List.pairwise_append.mpr ⟨h.order, by simp, fun j hj k hk => ?_⟩
    obtain rfl := List.mem_singleton.mp hk
    refine ⟨nofun, fun c hc hk' => ?_⟩
    obtain ⟨r', hwaits, -⟩ := h.settled_of_joiner hj hc
    have hlt := hwaits.1
    have heq : v.callerCount = c := by simpa [Job.joiner] using hk'
    omega
  join_reactions := by
    intro r' hlt' hset hkind'
    obtain ⟨cs, hjobs, hnodup, hcs⟩ := h.join_reactions r' hlt' hset hkind'
    exact ⟨cs, hjobs, hnodup, fun c hc => (waits_addCaller v t r c r').mpr (Or.inl (hcs c hc))⟩
  other_reactions := h.other_reactions
  waiting := by
    intro c r' hwaits
    rcases (waits_addCaller v t r c r').mp hwaits with hold | ⟨rfl, rfl⟩
    · rcases h.waiting c r' hold with hreact | hmem | hmem
      · exact Or.inl hreact
      · exact Or.inr (Or.inl (List.mem_append_left _ hmem))
      · exact Or.inr (Or.inr (List.mem_append_left _ hmem))
    · exact Or.inr (Or.inl (by simp))

/-- The reaction that drops an entry has run. The callers' jobs behind it may
run now. -/
theorem pop_drop {r : Nat} (h : JobInv v n (.dropEntry r :: jobs)) : JobInv v n jobs where
  processed_le := h.processed_le
  settled_lt := h.settled_lt
  drop_job := fun r' hr' => h.drop_job r' (List.mem_cons_of_mem _ hr')
  retain_job := fun c r' hc => h.retain_job c r' (List.mem_cons_of_mem _ hc)
  subscribe_job := by
    intro c r' hc
    obtain ⟨hwaits, hsettled, hnot⟩ := h.subscribe_job c r' (List.mem_cons_of_mem _ hc)
    exact ⟨hwaits, hsettled, fun hmem => hnot (List.mem_cons_of_mem _ hmem)⟩
  order := (List.pairwise_cons.mp h.order).2
  join_reactions := h.join_reactions
  other_reactions := h.other_reactions
  waiting := by
    intro c r' hwaits
    simpa using h.waiting c r' hwaits

/-- `retainSubscription` returns to `subscribe`. One more job is queued for the
same caller, who waits until that has run. -/
theorem pop_retain {c r : Nat} (h : JobInv v n (.resumeRetain c r :: jobs)) :
    JobInv v n (jobs ++ [.resumeSubscribe c r]) := by
  obtain ⟨hfirst, horder⟩ := List.pairwise_cons.mp h.order
  obtain ⟨hwaits, hsettled⟩ := h.retain_job c r (by simp)
  -- a job behind this one neither drops the entry nor resumes the caller
  have hnodrop : .dropEntry r ∉ jobs := fun hmem => ((hfirst _ hmem).1 r rfl).2 c rfl
  refine ⟨h.processed_le, h.settled_lt, ?_, ?_, ?_, ?_, h.join_reactions, h.other_reactions, ?_⟩
  · intro r' hr'
    exact h.drop_job r' (List.mem_cons_of_mem _ (by simpa using hr'))
  · intro c' r' hc'
    exact h.retain_job c' r' (List.mem_cons_of_mem _ (by simpa using hc'))
  · intro c' r' hc'
    rcases List.mem_append.mp hc' with hold | hnew
    · obtain ⟨hwaits', hset, hnot⟩ := h.subscribe_job c' r' (List.mem_cons_of_mem _ hold)
      exact ⟨hwaits', hset, fun hmem => hnot (List.mem_cons_of_mem _ (by simpa using hmem))⟩
    · obtain ⟨rfl, rfl⟩ : c' = c ∧ r' = r := by simpa using hnew
      exact ⟨hwaits, hsettled, by simpa using hnodrop⟩
  · refine List.pairwise_append.mpr ⟨horder, by simp, fun j hj k hk => ?_⟩
    obtain rfl := List.mem_singleton.mp hk
    refine ⟨nofun, fun c' hj' hk' => ?_⟩
    obtain rfl : c = c' := by simpa [Job.joiner] using hk'
    exact (hfirst j hj).2 c rfl hj'
  · intro c' r' hwaits'
    have hold := h.waiting c' r' hwaits'
    simp only [List.mem_cons, List.mem_append, reduceCtorEq, false_or] at hold ⊢
    grind

/-- `subscribe` returns: its caller waits no longer. No other job is
there for it. -/
theorem pop_subscribe {c r : Nat} {phase : CallerPhase} (hphase : phase ≠ .waiting)
    (h : JobInv v n (.resumeSubscribe c r :: jobs)) : JobInv (v.setPhase c phase) n jobs := by
  obtain ⟨hfirst, horder⟩ := List.pairwise_cons.mp h.order
  obtain ⟨hwaits, hsettled, -⟩ := h.subscribe_job c r (by simp)
  have hrest : ∀ c' r', (v.setPhase c phase).Waits c' r' ↔ v.Waits c' r' ∧ c' ≠ c := by
    intro c' r'
    simp only [Service.Waits, Service.setPhase, Function.update_apply]
    grind
  -- no job behind this one resumes the caller again
  have hother : ∀ j ∈ jobs, j.joiner ≠ some c := fun j hj => (hfirst j hj).2 c rfl
  refine ⟨h.processed_le, h.settled_lt, ?_, ?_, ?_, horder, ?_, h.other_reactions, ?_⟩
  · exact fun r' hr' => h.drop_job r' (List.mem_cons_of_mem _ hr')
  · intro c' r' hc'
    obtain ⟨hwaits', hset⟩ := h.retain_job c' r' (List.mem_cons_of_mem _ hc')
    refine ⟨(hrest c' r').mpr ⟨hwaits', ?_⟩, hset⟩
    rintro rfl
    exact hother _ hc' rfl
  · intro c' r' hc'
    obtain ⟨hwaits', hset, hnot⟩ := h.subscribe_job c' r' (List.mem_cons_of_mem _ hc')
    refine ⟨(hrest c' r').mpr ⟨hwaits', ?_⟩, hset, fun hmem => hnot (List.mem_cons_of_mem _ hmem)⟩
    rintro rfl
    exact hother _ hc' rfl
  · intro r' hlt' hset hkind'
    obtain ⟨cs, hjobs, hnodup, hcs⟩ := h.join_reactions r' hlt' hset hkind'
    refine ⟨cs, hjobs, hnodup, fun c' hc' => (hrest c' r').mpr ⟨hcs c' hc', ?_⟩⟩
    rintro rfl
    rw [← (hcs c' hc').2.2, hwaits.2.2, hsettled] at hset
    cases hset
  · intro c' r' hwaits'
    obtain ⟨hold, hne⟩ := (hrest c' r').mp hwaits'
    have hjob := h.waiting c' r' hold
    simp only [List.mem_cons, reduceCtorEq, false_or, Job.resumeSubscribe.injEq] at hjob
    grind

/-- Settling drops no entry: the reaction that does is queued. So a caller that
is told of a rejection is told after the entry was dropped. -/
theorem dropped_settle (h : JobInv v n jobs) {r : Nat} (hlt : r < n.sent)
    (hunsettled : n.settled r = false) {r' : Nat} (hkind : (n.commands r').kind = .subscribe) :
    (n.settle r).Dropped (jobs ++ (n.reactions r).filter Job.joins) r' ↔ n.Dropped jobs r' := by
  have hqueued := (h.settle_reactions hlt hunsettled).1
  simp only [SubscriberConnection.Dropped, SubscriberConnection.Refused,
    SubscriberConnection.settle, Function.update_apply, List.mem_append]
  by_cases heq : r' = r
  · subst heq
    obtain ⟨cs, hjobs, -, -⟩ := h.join_reactions r' hlt hunsettled hkind
    have hmem : .dropEntry r' ∈ (n.reactions r').filter Job.joins := by simp [hjobs, Job.joins]
    simp [hmem, hunsettled]
  · have hnot : .dropEntry r' ∉ (n.reactions r).filter Job.joins := by
      intro hmem
      have := (hqueued _ hmem).2
      simp [heq] at this
    simp [heq, hnot]

end JobInv

end NestCache
