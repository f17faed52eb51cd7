import NestCache.PubSub
import Mathlib.Data.Finset.Card
import Mathlib.Data.Finset.Range

/-!
# Entries and callers of subscriptions

Half of the invariant behind subscription safety: the entries, the counters and
the callers agree with the commands sent (`RefInv`).  Every operation of the
service on them has its own preservation lemma.  The keystone is `kept`: a
caller that has not unsubscribed finds its subscription under its target, unless
that subscription was rejected and dropped.
-/

namespace NestCache

/-! ## Holders and outcomes -/

/-- The callers that joined the subscription `ref` and have not
unsubscribed. -/
def Service.holders (v : Service) (ref : Nat) : Finset Nat :=
  (Finset.range v.callerCount).filter fun caller =>
    (v.callers caller).ref = ref ∧ (v.callers caller).released = false

/-- A holder of a reference is a caller that joined it and is not
released from it. -/
theorem Service.mem_holders {v : Service} {ref caller : Nat} :
    caller ∈ v.holders ref ↔ caller < v.callerCount ∧ (v.callers caller).ref = ref ∧
      (v.callers caller).released = false := by
  simp [holders]

@[simp] theorem Service.holders_setRef (v : Service) (t : Target) (ref r : Nat) :
    (v.setRef t ref).holders r = v.holders r := rfl

@[simp] theorem Service.holders_deleteRef (v : Service) (t : Target) (r : Nat) :
    (v.deleteRef t).holders r = v.holders r := rfl

@[simp] theorem Service.holders_setPhase (v : Service) (c : Nat) (phase : CallerPhase) (r : Nat) :
    (v.setPhase c phase).holders r = v.holders r := by
  ext c'
  simp only [mem_holders, setPhase, Function.update_apply]
  grind

/-- A new caller holds the subscription it joins. -/
theorem Service.holders_addCaller (v : Service) (t : Target) (ref r : Nat) :
    (v.addCaller t ref).holders r =
      if r = ref then insert v.callerCount (v.holders r) else v.holders r := by
  ext c'
  split <;> simp only [Finset.mem_insert, mem_holders, addCaller, Function.update_apply] <;> grind

/-- A released caller holds nothing. -/
theorem Service.holders_release (v : Service) (c r : Nat) :
    (v.release c).holders r = (v.holders r).erase c := by
  ext c'
  simp only [Finset.mem_erase, mem_holders, release, Function.update_apply]
  grind

namespace SubscriberConnection

/-- The promise of the command has resolved. -/
def Granted (n : SubscriberConnection) (command : Nat) : Prop :=
  n.settled command = true ∧ n.accepted command = true

/-- The promise of the command has rejected. -/
def Refused (n : SubscriberConnection) (command : Nat) : Prop :=
  n.settled command = true ∧ n.accepted command = false

/-- The promise has rejected and the reaction that drops the entry has run. -/
def Dropped (n : SubscriberConnection) (jobs : List Job) (ref : Nat) : Prop :=
  n.Refused ref ∧ .dropEntry ref ∉ jobs

/-- A reference that the server has granted is not one whose command was
dropped. -/
theorem Granted.not_dropped {n : SubscriberConnection} {jobs : List Job} {ref : Nat}
    (h : n.Granted ref) : ¬ n.Dropped jobs ref := by
  intro hdrop
  have hacc := hdrop.1.2
  rw [h.2] at hacc
  cases hacc

end SubscriberConnection

/-! ## Entries, counters and callers -/

/-- The entries, counters and callers agree with the commands sent.  `dropped`
are the subscriptions whose rejection has removed the entry. -/
structure RefInv (v : Service) (n : SubscriberConnection) (dropped : Nat → Prop) : Prop where
  known : ∀ c, (v.callers c).phase ≠ .waiting → c < v.callerCount
  joined : ∀ c < v.callerCount, (v.callers c).ref < n.sent ∧
    n.commands (v.callers c).ref = ⟨.subscribe, (v.callers c).target⟩
  count : ∀ r, v.count r = (v.holders r).card
  current : ∀ t r, v.refs t = some r → r < n.sent ∧ n.commands r = ⟨.subscribe, t⟩ ∧
    ∀ r', r < r' → r' < n.sent → (n.commands r').target ≠ t
  kept : ∀ c < v.callerCount, (v.callers c).released = false →
    v.refs (v.callers c).target = some (v.callers c).ref ∨ dropped (v.callers c).ref
  opened : ∀ r < n.sent, (n.commands r).kind = .subscribe →
    n.Granted r ∨ dropped r ∨ v.refs (n.commands r).target = some r
  gone : ∀ t r, v.refs t = some r → ¬ dropped r
  listening : ∀ c, (v.callers c).phase = .listening → n.Granted (v.callers c).ref
  rejected : ∀ c, (v.callers c).phase = .rejected → dropped (v.callers c).ref
  released : ∀ c, (v.callers c).released = true → (v.callers c).phase = .listening

namespace RefInv

variable {v : Service} {n n' : SubscriberConnection} {dropped dropped' : Nat → Prop}

/-- A caller's subscription is a SUBSCRIBE. -/
theorem subscribes (h : RefInv v n dropped) {c : Nat} (hc : c < v.callerCount) :
    (n.commands (v.callers c).ref).kind = .subscribe := by
  rw [(h.joined c hc).2]

/-- Only the commands and their outcomes matter. The reactions that wait for a
command do not. -/
theorem congr (h : RefInv v n dropped) (hcommands : n'.commands = n.commands)
    (hsent : n'.sent = n.sent) (hgranted : ∀ r, n'.Granted r ↔ n.Granted r)
    (hdropped : ∀ r, (n.commands r).kind = .subscribe → (dropped' r ↔ dropped r)) :
    RefInv v n' dropped' where
  known := h.known
  joined := by
    rw [hcommands, hsent]
    exact h.joined
  count := h.count
  current := by
    rw [hcommands, hsent]
    exact h.current
  kept := by
    intro c hc hrel
    rw [hdropped _ (h.subscribes hc)]
    exact h.kept c hc hrel
  opened := by
    intro r hr hkind
    rw [hcommands] at hkind ⊢
    rw [hgranted, hdropped r hkind]
    exact h.opened r (by omega) hkind
  gone := by
    intro t r hr
    rw [hdropped r (by rw [(h.current t r hr).2.1])]
    exact h.gone t r hr
  listening := by
    simp only [hgranted]
    exact h.listening
  rejected := by
    intro c hc
    rw [hdropped _ (h.subscribes (h.known c (by simp [hc])))]
    exact h.rejected c hc
  released := h.released

/-- Whoever holds the entry's subscription keeps its counter positive. -/
theorem no_holders (h : RefInv v n dropped) {r : Nat} (hzero : v.count r = 0) (c : Nat) :
    c ∉ v.holders r := by
  have hcard : (v.holders r).card = 0 := by
    have := h.count r
    omega
  rw [Finset.card_eq_zero.mp hcard]
  exact Finset.notMem_empty c

/-- A subscription that was never sent has no callers. -/
theorem holders_sent (h : RefInv v n dropped) : v.holders n.sent = ∅ := by
  refine Finset.eq_empty_of_forall_notMem fun c hc => ?_
  obtain ⟨hlt, href, -⟩ := Service.mem_holders.mp hc
  have := (h.joined c hlt).1
  omega

/-- SUBSCRIBE is sent for a target without an entry. Its number is the next
one, so it is later than every command of the target, and nobody has joined
it yet. -/
theorem setRef (h : RefInv v n dropped) {t : Target} (hnone : v.refs t = none)
    (hdropped : ¬ dropped n.sent) (jobs : List Job) :
    RefInv (v.setRef t n.sent) (n.send ⟨.subscribe, t⟩ jobs) dropped where
  known := h.known
  joined := by
    intro c hc
    have hjoined := h.joined c hc
    have hne : (v.callers c).ref ≠ n.sent := by omega
    refine ⟨Nat.lt_succ_of_lt hjoined.1, ?_⟩
    simpa [Service.setRef, SubscriberConnection.send, hne] using hjoined.2
  count := by
    intro r
    rw [Service.holders_setRef]
    by_cases hr : r = n.sent
    · simp [hr, h.holders_sent, Service.setRef]
    · simpa [hr, Service.setRef] using h.count r
  current := by
    intro t' r hr
    simp only [Service.setRef, SubscriberConnection.send, Function.update_apply] at *
    have := h.current t' r
    grind
  kept := by
    intro c hc hrel
    have hkept := h.kept c hc hrel
    simp only [Service.setRef, Function.update_apply] at *
    grind
  opened := by
    intro r hr hkind
    have hopened := h.opened r
    simp only [Service.setRef, SubscriberConnection.send, Function.update_apply,
      SubscriberConnection.Granted] at *
    grind
  gone := by
    intro t' r hr
    have hgone := h.gone t' r
    simp only [Service.setRef, Function.update_apply] at *
    grind
  listening := h.listening
  rejected := h.rejected
  released := h.released

/-- A caller joins the current subscription of its target. The counter and the
holders of that subscription grow by one together. -/
theorem addCaller (h : RefInv v n dropped) {t : Target} {r : Nat} (hr : v.refs t = some r) :
    RefInv (v.addCaller t r) n dropped where
  known := by
    intro c hc
    have hknown := h.known c
    simp only [Service.addCaller, Function.update_apply] at *
    grind
  joined := by
    intro c hc
    have hjoined := h.joined c
    have hcurrent := h.current t r hr
    simp only [Service.addCaller, Function.update_apply] at *
    grind
  count := by
    intro r'
    have hfresh : v.callerCount ∉ v.holders r' := by simp [Service.mem_holders]
    rw [Service.holders_addCaller]
    by_cases hr' : r' = r
    · rw [if_pos hr', Finset.card_insert_of_notMem hfresh]
      simp [hr', Service.addCaller, h.count r]
    · simpa [hr', Service.addCaller] using h.count r'
  current := h.current
  kept := by
    intro c hc hrel
    have hkept := h.kept c
    simp only [Service.addCaller, Function.update_apply] at *
    grind
  opened := h.opened
  gone := h.gone
  listening := by
    intro c hc
    have hlistening := h.listening c
    simp only [Service.addCaller, Function.update_apply] at *
    grind
  rejected := by
    intro c hc
    have hrejected := h.rejected c
    simp only [Service.addCaller, Function.update_apply] at *
    grind
  released := by
    intro c hc
    have hreleased := h.released c
    simp only [Service.addCaller, Function.update_apply] at *
    grind

/-- A waiting caller learns how its subscription came out. It listens if the
command was granted, and is rejected if it was dropped; the counter does not
change. -/
theorem setPhase (h : RefInv v n dropped) {c : Nat} {phase : CallerPhase}
    (hc : c < v.callerCount) (hwaiting : (v.callers c).phase = .waiting)
    (hgranted : phase = .listening → n.Granted (v.callers c).ref)
    (hdropped : phase = .rejected → dropped (v.callers c).ref) :
    RefInv (v.setPhase c phase) n dropped where
  known := by
    intro c' hc'
    have hknown := h.known c'
    simp only [Service.setPhase, Function.update_apply] at *
    grind
  joined := by
    intro c' hc'
    have hjoined := h.joined c'
    simp only [Service.setPhase, Function.update_apply] at *
    grind
  count := by
    intro r
    rw [Service.holders_setPhase]
    exact h.count r
  current := h.current
  kept := by
    intro c' hc' hrel
    have hkept := h.kept c'
    simp only [Service.setPhase, Function.update_apply] at *
    grind
  opened := h.opened
  gone := h.gone
  listening := by
    intro c' hc'
    have hlistening := h.listening c'
    simp only [Service.setPhase, Function.update_apply] at *
    grind
  rejected := by
    intro c' hc'
    have hrejected := h.rejected c'
    simp only [Service.setPhase, Function.update_apply] at *
    grind
  released := by
    intro c' hc'
    have hreleased := h.released c'
    simp only [Service.setPhase, Function.update_apply] at *
    grind

/-- A listening caller stops counting. The counter and the holders of its
subscription shrink by one together. -/
theorem release (h : RefInv v n dropped) {c : Nat} (hlistening : (v.callers c).phase = .listening)
    (hrel : (v.callers c).released = false) : RefInv (v.release c) n dropped where
  known := by
    intro c' hc'
    have hknown := h.known c'
    simp only [Service.release, Function.update_apply] at *
    grind
  joined := by
    intro c' hc'
    have hjoined := h.joined c'
    simp only [Service.release, Function.update_apply] at *
    grind
  count := by
    intro r
    have hc := h.known c (by simp [hlistening])
    rw [Service.holders_release]
    by_cases hr : r = (v.callers c).ref
    · have hmem : c ∈ v.holders r := Service.mem_holders.mpr ⟨hc, hr.symm, hrel⟩
      have hcard := Finset.card_erase_add_one hmem
      have hcount := h.count r
      have hnew : (v.release c).count r = v.count r - 1 := by simp [Service.release, hr]
      omega
    · have hnot : c ∉ v.holders r := fun hmem => hr (Service.mem_holders.mp hmem).2.1.symm
      rw [Finset.erase_eq_of_notMem hnot]
      simpa [Service.release, hr] using h.count r
  current := h.current
  kept := by
    intro c' hc' hrel'
    have hkept := h.kept c'
    simp only [Service.release, Function.update_apply] at *
    grind
  opened := h.opened
  gone := h.gone
  listening := by
    intro c' hc'
    have hgranted := h.listening c'
    simp only [Service.release, Function.update_apply] at *
    grind
  rejected := by
    intro c' hc'
    have hrejected := h.rejected c'
    simp only [Service.release, Function.update_apply] at *
    grind
  released := by
    intro c' hc'
    have hreleased := h.released c'
    simp only [Service.release, Function.update_apply] at *
    grind

/-- UNSUBSCRIBE is sent for a target whose subscription nobody holds. The
reference is forgotten with it, so the next caller sends a SUBSCRIBE of its
own. -/
theorem deleteRef (h : RefInv v n dropped) {t : Target} {r : Nat} (hr : v.refs t = some r)
    (hgranted : n.Granted r) (hzero : v.count r = 0) (jobs : List Job) :
    RefInv (v.deleteRef t) (n.send ⟨.unsubscribe, t⟩ jobs) dropped where
  known := h.known
  joined := by
    intro c hc
    have hjoined := h.joined c hc
    have hne : (v.callers c).ref ≠ n.sent := by omega
    refine ⟨Nat.lt_succ_of_lt hjoined.1, ?_⟩
    simpa [Service.deleteRef, SubscriberConnection.send, hne] using hjoined.2
  count := h.count
  current := by
    intro t' r' hr'
    have hcurrent := h.current t' r'
    simp only [Service.deleteRef, SubscriberConnection.send, Function.update_apply] at *
    grind
  kept := by
    intro c hc hrel
    have hkept := h.kept c hc hrel
    have hnot := h.no_holders hzero c
    rw [Service.mem_holders] at hnot
    simp only [Service.deleteRef, Function.update_apply] at *
    grind
  opened := by
    intro r' hr' hkind
    have hopened := h.opened r'
    simp only [Service.deleteRef, SubscriberConnection.send, Function.update_apply,
      SubscriberConnection.Granted] at *
    grind
  gone := by
    intro t' r' hr'
    have hgone := h.gone t' r'
    simp only [Service.deleteRef, Function.update_apply] at *
    grind
  listening := h.listening
  rejected := h.rejected
  released := h.released

/-- The promise of a command resolves. Nothing is forgotten by it. -/
theorem grant (h : RefInv v n dropped) {r : Nat} (hcommands : n'.commands = n.commands)
    (hsent : n'.sent = n.sent) (hgranted : ∀ r', n'.Granted r' ↔ n.Granted r' ∨ r' = r) :
    RefInv v n' dropped where
  known := h.known
  joined := by
    rw [hcommands, hsent]
    exact h.joined
  count := h.count
  current := by
    rw [hcommands, hsent]
    exact h.current
  kept := h.kept
  opened := by
    intro r' hr' hkind
    rw [hcommands] at hkind ⊢
    rw [hgranted]
    exact (h.opened r' (by omega) hkind).imp_left Or.inl
  gone := h.gone
  listening := fun c hc => (hgranted _).mpr (Or.inl (h.listening c hc))
  rejected := h.rejected
  released := h.released

/-- The entry of a rejected subscription is dropped. Those who joined it are
told in their own continuations; a caller that comes later starts anew. -/
theorem dropEntry (h : RefInv v n dropped) {t : Target} {r : Nat} (hr : v.refs t = some r)
    (hdropped : ∀ r', dropped' r' ↔ dropped r' ∨ r' = r) :
    RefInv (v.deleteRef t) n dropped' where
  known := h.known
  joined := h.joined
  count := h.count
  current := by
    intro t' r' hr'
    have hcurrent := h.current t' r'
    simp only [Service.deleteRef, Function.update_apply] at *
    grind
  kept := by
    intro c hc hrel
    have hkept := h.kept c hc hrel
    simp only [Service.deleteRef, Function.update_apply] at *
    grind
  opened := by
    intro r' hr' hkind
    have hopened := h.opened r' hr' hkind
    simp only [Service.deleteRef, Function.update_apply] at *
    grind
  gone := by
    intro t' r' hr'
    have hgone := h.gone t' r'
    have hcurrent := h.current t' r'
    have hcurrent' := h.current t r hr
    simp only [Service.deleteRef, Function.update_apply] at *
    grind
  listening := h.listening
  rejected := fun c hc => (hdropped _).mpr (Or.inl (h.rejected c hc))
  released := h.released

end RefInv

end NestCache
