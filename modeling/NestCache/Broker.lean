import Mathlib.Data.List.Dedup
import Mathlib.Data.List.Perm.Basic
import Mathlib.Logic.Function.Basic
import NestCache.Machine

/-!
# Brokers

A broker takes the messages of its publishers one by one and writes each to
every connection that has a subscription for it.  What a publisher has sent
waits in its outbox, what a connection was written in its inbox; both are
queues.  What a publisher has sent is served at most once: one that sends
unanswered messages again after a reconnect is not meant.  A connection that is
reset loses its inbox and comes back with any subscriptions.  When a message
matches several subscriptions of one connection, their order is left to the
broker.

* `stream_step` — what one step adds to the stream of a subscription;
* `stream_sublist` — the stream of a subscription is a sublist of the messages
  served that match it: nothing is invented, doubled or reordered;
* `sent_sublist` — the messages served from a publisher are a sublist of those
  it sent;
* `exists_order` — one order of the calls of all publishers is what is served.
-/

namespace Broker

open scoped List

/-- Which messages a subscription admits, and the order in which a connection
is written a message that several of its subscriptions admit. -/
structure Matching (S M : Type) where
  admits : S → M → Bool
  order : List S → M → List S
  perm : ∀ subscriptions m, (order subscriptions m).Perm (subscriptions.filter (admits · m))

/-- The queues and the subscriptions. -/
structure State (P C S M : Type) where
  outbox : P → List M := fun _ => []
  subscriptions : C → List S := fun _ => []
  inbox : C → List (S × M) := fun _ => []

/-- What happens next. -/
inductive Action (P C S M : Type)
  | send (publisher : P) (m : M)
  | lose (publisher : P)
  | serve (publisher : P)
  | subscribe (connection : C) (subscription : S)
  | unsubscribe (connection : C) (subscription : S)
  | receive (connection : C)
  | reset (connection : C) (subscriptions : List S)

/-- What can be observed. -/
inductive Event (P C S M : Type)
  | sent (publisher : P) (m : M)
  | served (publisher : P) (m : M)
  | received (connection : C) (subscription : S) (m : M)
  | reset (connection : C)
  deriving DecidableEq

variable {P C S M : Type} [DecidableEq P] [DecidableEq C] [DecidableEq S]

/-- What a connection is written for a message. -/
def written (rules : Matching S M) (m : M) (subscriptions : List S) : List (S × M) :=
  (rules.order subscriptions m).map (·, m)

/-- One step.  A message leaves the outbox when it is served or lost, so no
publisher sends one again. -/
def step (rules : Matching S M) (s : State P C S M) :
    Action P C S M → Option (State P C S M × List (Event P C S M))
  | .send p m =>
      some ({ s with outbox := Function.update s.outbox p (s.outbox p ++ [m]) }, [.sent p m])
  | .lose p =>
      match s.outbox p with
      | [] => none
      | _ :: rest => some ({ s with outbox := Function.update s.outbox p rest }, [])
  | .serve p =>
      match s.outbox p with
      | [] => none
      | m :: rest =>
          some ({ s with
            outbox := Function.update s.outbox p rest
            inbox := fun c => s.inbox c ++ written rules m (s.subscriptions c) }, [.served p m])
  | .subscribe c t =>
      some ({ s with
        subscriptions := Function.update s.subscriptions c ((s.subscriptions c).insert t) }, [])
  | .unsubscribe c t =>
      some ({ s with
        subscriptions := Function.update s.subscriptions c ((s.subscriptions c).erase t) }, [])
  | .receive c =>
      match s.inbox c with
      | [] => none
      | (t, m) :: rest =>
          some ({ s with inbox := Function.update s.inbox c rest }, [.received c t m])
  | .reset c subscriptions =>
      some ({ s with
        inbox := Function.update s.inbox c []
        subscriptions := Function.update s.subscriptions c subscriptions.dedup }, [.reset c])

/-- The broker, before anyone has sent or subscribed. -/
def machine (rules : Matching S M) :
    Machine (State P C S M) (Action P C S M) (Event P C S M) where
  init := {}
  step := step rules

namespace Event

omit [DecidableEq P] [DecidableEq C] [DecidableEq S] in
/-- The publisher and the message that were served. -/
def served? : Event P C S M → Option (P × M)
  | served p m => some (p, m)
  | _ => none

/-- What a publisher sent. -/
def sentBy? (p : P) : Event P C S M → Option M
  | sent p' m => if p' = p then some m else none
  | _ => none

/-- What was served from a publisher. -/
def servedFrom? (p : P) : Event P C S M → Option M
  | served p' m => if p' = p then some m else none
  | _ => none

/-- What a connection received for a subscription. -/
def receivedFor? (c : C) (t : S) : Event P C S M → Option M
  | received c' t' m => if c' = c ∧ t' = t then some m else none
  | _ => none

end Event

/-- The messages of a subscription. -/
def messagesFor (t : S) (queue : List (S × M)) : List M :=
  queue.filterMap fun entry => if entry.1 = t then some entry.2 else none

/-- The messages received for a subscription, and those still to be
received. -/
def stream (c : C) (t : S) (out : List (Event P C S M)) (s : State P C S M) : List M :=
  out.filterMap (·.receivedFor? c t) ++ messagesFor t (s.inbox c)

/-- The messages served, those that a subscription admits. -/
def admitted (rules : Matching S M) (t : S) (out : List (Event P C S M)) : List M :=
  (out.filterMap (·.served?)).filterMap fun sent => if rules.admits t sent.2 then some sent.2 else none

/-! ## What one step adds -/

section Steps

variable {rules : Matching S M} {s s' : State P C S M} {a : Action P C S M}
  {out more : List (Event P C S M)} {c : C} {t : S}

omit [DecidableEq P] [DecidableEq C] in
/-- What a queue holds for a subscription is taken part by part. -/
@[simp] theorem messagesFor_append (queue later : List (S × M)) :
    messagesFor t (queue ++ later) = messagesFor t queue ++ messagesFor t later :=
  List.filterMap_append

omit [DecidableEq P] [DecidableEq C] in
/-- The head of a queue counts only if it is for this subscription. -/
@[simp] theorem messagesFor_cons (entry : S × M) (queue : List (S × M)) :
    messagesFor t (entry :: queue) =
      (if entry.1 = t then [entry.2] else []) ++ messagesFor t queue := by
  by_cases h : entry.1 = t <;> simp [messagesFor, h]

omit [DecidableEq P] [DecidableEq C] in
/-- A connection is written a message once for each subscription that
admits it. -/
theorem messagesFor_written (m : M) {subscriptions : List S} (h : subscriptions.Nodup) :
    messagesFor t (written rules m subscriptions) =
      if t ∈ subscriptions ∧ rules.admits t m = true then [m] else [] := by
  have hperm := rules.perm subscriptions m
  have hnodup : (rules.order subscriptions m).Nodup := hperm.nodup_iff.mpr (h.filter _)
  have hmem : t ∈ rules.order subscriptions m ↔
      t ∈ subscriptions ∧ rules.admits t m = true := by
    rw [hperm.mem_iff, List.mem_filter]
  have honce : ∀ l : List S, l.Nodup →
      messagesFor t (l.map (·, m)) = if t ∈ l then [m] else [] := by
    intro l hl
    induction l with
    | nil => rfl
    | cons t' l ih =>
        obtain ⟨hnot, hl⟩ := List.nodup_cons.mp hl
        rw [List.map_cons, messagesFor_cons, ih hl]
        by_cases heq : t' = t
        · subst heq
          simp [hnot]
        · simp [heq, Ne.symm heq]
  rw [written, honce _ hnodup]
  simp only [hmem]

/-- Subscriptions are not listed twice. A subscription that is there already is
not inserted again, and erasing one keeps the others distinct. -/
theorem nodup_step (hnodup : ∀ c, (s.subscriptions c).Nodup)
    (hstep : step rules s a = some (s', more)) : ∀ c, (s'.subscriptions c).Nodup := by
  intro c
  have hupdate : ∀ c' l, l.Nodup → (Function.update s.subscriptions c' l c).Nodup := by
    intro c' l hl
    by_cases hc : c = c'
    · subst hc
      rwa [Function.update_self]
    · rw [Function.update_of_ne hc]
      exact hnodup c
  cases a with
  | send p m =>
      cases hstep
      exact hnodup c
  | lose p | serve p | receive c' =>
      simp only [step] at hstep
      split at hstep
      · cases hstep
      · cases hstep
        exact hnodup c
  | subscribe c' t =>
      cases hstep
      exact hupdate c' _ ((hnodup c').insert)
  | unsubscribe c' t =>
      cases hstep
      exact hupdate c' _ ((hnodup c').erase t)
  | reset c' subscriptions =>
      cases hstep
      exact hupdate c' _ (List.nodup_dedup _)

omit [DecidableEq P] in
/-- Steps that neither serve a message nor show one to the connection. -/
theorem stream_rest (hserved : more.filterMap (·.served?) = [])
    (hseen : ∀ e ∈ more, e.receivedFor? c t = none) (hinbox : s'.inbox c = s.inbox c) :
    stream c t (out ++ more) s' = stream c t out s ++
      if t ∈ s.subscriptions c then admitted rules t more else [] := by
  rw [stream, stream, List.filterMap_append, List.filterMap_eq_nil_iff.mpr hseen, List.append_nil,
    hinbox, admitted, hserved, List.filterMap_nil, ite_self, List.append_nil]

/-- What a step does to the subscriptions of a connection. It leaves them,
inserts the one of a `subscribe` action, erases the one of an `unsubscribe`
action, or resets them; the last case shows in the output. -/
theorem subscriptions_step (hstep : step rules s a = some (s', more)) (c : C) :
    s'.subscriptions c = s.subscriptions c ∨
      (∃ t, a = .subscribe c t ∧ s'.subscriptions c = (s.subscriptions c).insert t) ∨
      (∃ t, a = .unsubscribe c t ∧ s'.subscriptions c = (s.subscriptions c).erase t) ∨
      .reset c ∈ more := by
  cases a with
  | send p m =>
      cases hstep
      exact .inl rfl
  | lose p | serve p | receive c' =>
      simp only [step] at hstep
      split at hstep
      · cases hstep
      · cases hstep
        exact .inl rfl
  | subscribe c' t =>
      cases hstep
      by_cases hc : c = c'
      · subst hc
        exact .inr (.inl ⟨t, rfl, Function.update_self ..⟩)
      · exact .inl (Function.update_of_ne hc ..)
  | unsubscribe c' t =>
      cases hstep
      by_cases hc : c = c'
      · subst hc
        exact .inr (.inr (.inl ⟨t, rfl, Function.update_self ..⟩))
      · exact .inl (Function.update_of_ne hc ..)
  | reset c' subscriptions =>
      cases hstep
      by_cases hc : c = c'
      · subst hc
        exact .inr (.inr (.inr List.mem_cons_self))
      · exact .inl (Function.update_of_ne hc ..)

/-- **Streams.**  A step adds to the stream of a subscription what it serves of
it, unless it resets the connection. -/
theorem stream_step (hnodup : ∀ c, (s.subscriptions c).Nodup)
    (hstep : step rules s a = some (s', more)) (hreset : .reset c ∉ more) :
    stream c t (out ++ more) s' = stream c t out s ++
      if t ∈ s.subscriptions c then admitted rules t more else [] := by
  cases a with
  | send p m =>
      cases hstep
      exact stream_rest rfl (by simp [Event.receivedFor?]) rfl
  | lose p =>
      simp only [step] at hstep
      split at hstep
      · cases hstep
      · cases hstep
        exact stream_rest rfl (by simp) rfl
  | serve p =>
      simp only [step] at hstep
      split at hstep
      · cases hstep
      · next m rest hout =>
          cases hstep
          have hwritten := @messagesFor_written S M _ rules t m _ (hnodup c)
          simp only [stream, List.filterMap_append, messagesFor_append, hwritten]
          by_cases ht : t ∈ s.subscriptions c <;> cases hadmits : rules.admits t m <;>
            simp [ht, hadmits, admitted, Event.served?, Event.receivedFor?]
  | subscribe c' t' | unsubscribe c' t' =>
      cases hstep
      exact stream_rest rfl (by simp) rfl
  | receive c' =>
      simp only [step] at hstep
      split at hstep
      · cases hstep
      · next t' m rest hin =>
          cases hstep
          by_cases hc : c' = c
          · subst hc
            have hserved : admitted rules t [(.received c' t' m : Event P C S M)] = [] := rfl
            rw [hserved, ite_self, List.append_nil]
            by_cases ht : t' = t <;> simp [stream, hin, ht, Event.receivedFor?]
          · exact stream_rest rfl (by simp [Event.receivedFor?, hc])
              (Function.update_of_ne (Ne.symm hc) ..)
  | reset c' subscriptions =>
      cases hstep
      have hc : c ≠ c' := by
        rintro rfl
        exact hreset List.mem_cons_self
      exact stream_rest rfl (by simp [Event.receivedFor?]) (Function.update_of_ne hc ..)

/-- A reset of the connection takes messages away. What it had received stays;
what was in its inbox is lost. -/
theorem stream_reset (hstep : step rules s a = some (s', more)) (hreset : .reset c ∈ more) :
    stream c t (out ++ more) s' <+ stream c t out s := by
  cases a with
  | reset c' subscriptions =>
      cases hstep
      obtain rfl : c = c' := by simpa using hreset
      simp [stream, messagesFor, Event.receivedFor?]
  | send p m | subscribe c' t' | unsubscribe c' t' =>
      cases hstep
      simp at hreset
  | lose p | serve p | receive c' =>
      simp only [step] at hstep
      split at hstep
      · cases hstep
      · cases hstep
        simp at hreset

/-- A step that takes no message from a publisher and hands none to a
connection shows at most that one is served or a connection is reset. -/
theorem quiet_step (hstep : step rules s a = some (s', more)) (hsend : ∀ p m, a ≠ .send p m)
    (hreceive : ∀ c, a ≠ .receive c) : ∀ e ∈ more, (∃ p m, e = .served p m) ∨ ∃ c, e = .reset c := by
  cases a with
  | send p m => exact absurd rfl (hsend p m)
  | receive c => exact absurd rfl (hreceive c)
  | subscribe c t | unsubscribe c t | reset c subscriptions =>
      cases hstep
      simp
  | lose p | serve p =>
      simp only [step] at hstep
      split at hstep
      · cases hstep
      · cases hstep
        simp

/-- A step serves a publisher the head of its outbox, or sends, or loses. In
each case what was served and what is left is in the order of sending; only a
loss drops something from it. -/
theorem outbox_step (hstep : step rules s a = some (s', more)) (p : P) {seen : List M}
    (h : seen ++ s.outbox p <+ out.filterMap (·.sentBy? p)) :
    seen ++ more.filterMap (·.servedFrom? p) ++ s'.outbox p <+
      (out ++ more).filterMap (·.sentBy? p) := by
  rw [List.filterMap_append]
  cases a with
  | send p' m =>
      cases hstep
      by_cases hp : p' = p
      · subst hp
        simpa [Event.servedFrom?, Event.sentBy?] using h.append (List.Sublist.refl [m])
      · simpa [Event.servedFrom?, Event.sentBy?, hp, Function.update_of_ne (Ne.symm hp)] using h
  | lose p' =>
      simp only [step] at hstep
      split at hstep
      · cases hstep
      · next m rest hout =>
          cases hstep
          by_cases hp : p' = p
          · subst hp
            rw [hout] at h
            have hless : seen ++ rest <+ seen ++ m :: rest :=
              (List.Sublist.refl seen).append (List.sublist_cons_self m rest)
            simpa using hless.trans h
          · simpa [Function.update_of_ne (Ne.symm hp)] using h
  | serve p' =>
      simp only [step] at hstep
      split at hstep
      · cases hstep
      · next m rest hout =>
          cases hstep
          by_cases hp : p' = p
          · subst hp
            rw [hout] at h
            simpa [Event.servedFrom?, Event.sentBy?] using h
          · simpa [Event.servedFrom?, Event.sentBy?, hp, Function.update_of_ne (Ne.symm hp)] using h
  | subscribe c' t' | unsubscribe c' t' =>
      cases hstep
      simpa using h
  | receive c' =>
      simp only [step] at hstep
      split at hstep
      · cases hstep
      · cases hstep
        simpa [Event.servedFrom?, Event.sentBy?] using h
  | reset c' subscriptions =>
      cases hstep
      simpa [Event.servedFrom?, Event.sentBy?] using h

end Steps

/-! ## Runs -/

section Runs

variable {rules : Matching S M} {as : List (Action P C S M)} {s : State P C S M}
  {out : List (Event P C S M)}

/-- In every state of a run no connection holds a subscription twice, so a
message is queued for it once. -/
theorem nodup_run (hrun : (machine rules).run as = some (s, out)) :
    ∀ c, (s.subscriptions c).Nodup :=
  (machine rules).invariant (I := fun s => ∀ c, (s.subscriptions c).Nodup) (fun _ => .nil)
    (fun _ _ _ _ hs hstep => nodup_step hs hstep) hrun

omit [DecidableEq P] [DecidableEq C] [DecidableEq S] in
/-- What a history admits to a subscription is taken part by part. -/
theorem admitted_append (t : S) (out more : List (Event P C S M)) :
    admitted rules t (out ++ more) = admitted rules t out ++ admitted rules t more := by
  simp [admitted, List.filterMap_append]

/-- **What is received** for a subscription is served to it, in that order.
Messages may be missing, but what comes is in the order of serving and no more
often than it was served. -/
theorem stream_sublist (hrun : (machine rules).run as = some (s, out)) (c : C) (t : S) :
    stream c t out s <+ admitted rules t out := by
  refine ((machine rules).run_induction (I := fun _ out s =>
    (∀ c, (s.subscriptions c).Nodup) ∧ stream c t out s <+ admitted rules t out)
    ⟨fun _ => .nil, by simp [machine, stream, messagesFor]⟩ ?_ hrun).2
  rintro _ seen s a s' more ⟨hnodup, hsublist⟩ hstep
  refine ⟨nodup_step hnodup hstep, ?_⟩
  rw [admitted_append]
  by_cases hreset : .reset c ∈ more
  · exact ((stream_reset hstep hreset).trans hsublist).trans (List.sublist_append_left _ _)
  · rw [stream_step hnodup hstep hreset]
    refine hsublist.append ?_
    split
    · exact List.Sublist.refl _
    · exact List.nil_sublist _

/-- **What is served** was sent, in that order for each publisher. -/
theorem sent_sublist (hrun : (machine rules).run as = some (s, out)) (p : P) :
    out.filterMap (·.servedFrom? p) ++ s.outbox p <+ out.filterMap (·.sentBy? p) := by
  refine (machine rules).run_induction (I := fun _ out s =>
    out.filterMap (·.servedFrom? p) ++ s.outbox p <+ out.filterMap (·.sentBy? p)) (by simp [machine])
    ?_ hrun
  intro _ seen s a s' more hseen hstep
  have hsent := outbox_step hstep p hseen
  rwa [← List.filterMap_append] at hsent

end Runs

/-! ## One order for all publishers -/

section Orders

variable {X : Type} (publisher : X → P) (content : X → M)

omit [DecidableEq C] [DecidableEq S] in
/-- What was served from one publisher is read off all that was served, in the
order of serving. -/
theorem servedFrom_eq (p : P) (out : List (Event P C S M)) :
    out.filterMap (·.servedFrom? p) =
      (out.filterMap (·.served?)).filterMap fun sent => if sent.1 = p then some sent.2 else none := by
  rw [List.filterMap_filterMap]
  refine List.filterMap_congr fun e _ => ?_
  cases e <;> rfl

/-- Queues of the single publishers are shuffled into what is served. The
induction is on what was served: its publisher has the message at the head of
its queue, and that is taken next. -/
theorem exists_shuffle (served : List (P × M)) (queue : P → List X)
    (hqueue : ∀ p, served.filterMap (fun sent => if sent.1 = p then some sent.2 else none) =
      (queue p).map content)
    (howner : ∀ p, ∀ x ∈ queue p, publisher x = p) :
    ∃ order : List X, served = order.map (fun x => (publisher x, content x)) ∧
      ∀ p, order.filter (publisher · = p) = queue p := by
  induction served generalizing queue with
  | nil => exact ⟨[], rfl, fun p => (List.map_eq_nil_iff.mp (hqueue p).symm).symm⟩
  | cons sent served ih =>
      obtain ⟨p, m⟩ := sent
      have hhead : m :: served.filterMap (fun sent => if sent.1 = p then some sent.2 else none) =
          (queue p).map content := by
        simpa using hqueue p
      obtain ⟨x, rest, hx, hm, hrest⟩ := List.map_eq_cons_iff.mp hhead.symm
      have hpublisher : publisher x = p := howner p x (hx ▸ List.mem_cons_self)
      obtain ⟨order, hserved, horder⟩ := ih (Function.update queue p rest)
        (fun q => by
          by_cases hq : q = p
          · subst hq
            rw [Function.update_self, hrest]
          · rw [Function.update_of_ne hq, ← hqueue q, List.filterMap_cons_none]
            exact if_neg (Ne.symm hq))
        (fun q y hy => by
          by_cases hq : q = p
          · subst hq
            rw [Function.update_self] at hy
            exact howner q y (hx ▸ List.mem_cons_of_mem x hy)
          · rw [Function.update_of_ne hq] at hy
            exact howner q y hy)
      refine ⟨x :: order, by simp [hserved, hpublisher, hm], fun q => ?_⟩
      by_cases hq : q = p
      · subst hq
        simp [hpublisher, horder, hx]
      · simp [hpublisher, Ne.symm hq, horder, hq]

omit [DecidableEq C] [DecidableEq S] in
/-- **One order.** When each publisher sent the messages of its own calls,
there is one order of calls that is served, and keeps the order of each
publisher. -/
theorem exists_order {calls : List X} {out : List (Event P C S M)}
    (h : ∀ p, out.filterMap (·.servedFrom? p) <+
      (calls.filter (publisher · = p)).map content) :
    ∃ order : List X, out.filterMap (·.served?) = order.map (fun x => (publisher x, content x)) ∧
      ∀ p, order.filter (publisher · = p) <+ calls.filter (publisher · = p) := by
  choose queue hqueue hcontent using fun p => List.sublist_map_iff.mp (h p)
  have howner : ∀ p, ∀ x ∈ queue p, publisher x = p := by
    intro p x hx
    simpa using (List.mem_filter.mp ((hqueue p).subset hx)).2
  obtain ⟨order, hserved, horder⟩ := exists_shuffle publisher content (out.filterMap (·.served?)) queue
    (fun p => by rw [← servedFrom_eq, hcontent p]) howner
  refine ⟨order, hserved, fun p => ?_⟩
  rw [horder]
  exact hqueue p

end Orders

end Broker
