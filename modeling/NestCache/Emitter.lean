import Mathlib.Data.List.Basic

/-!
# Event emitters

The listeners that are registered with an emitter, in the order of registration.
A listener added with `once` is dropped before it is called; `off` drops the
registration of a function that was added last; an emission calls the listeners
that were registered when it began.
-/

namespace Emitter

/-- A function that is registered for an event. -/
structure Listener (E F : Type) where
  event : E
  handler : F
  once : Bool := false
  deriving DecidableEq

variable {E F : Type} [DecidableEq E] [DecidableEq F]

/-- This function for this event. -/
def Listener.is (event : E) (handler : F) (r : Listener E F) : Bool :=
  r.event = event && r.handler = handler

/-- `off`. -/
def off (event : E) (handler : F) (listeners : List (Listener E F)) : List (Listener E F) :=
  (listeners.reverse.eraseP (Listener.is event handler)).reverse

/-- What an emission calls. -/
def called (event : E) (listeners : List (Listener E F)) : List (Listener E F) :=
  listeners.filter fun r => r.event = event

variable {event : E} {handler : F} {before after : List (Listener E F)} {r : Listener E F}

/-- A function that is not registered is not dropped. -/
theorem off_of_forall_not (h : ∀ r ∈ after, r.is event handler = false) :
    off event handler after = after := by
  rw [off, List.eraseP_of_forall_not (by simpa using h), List.reverse_reverse]

/-- The last registration is dropped. -/
theorem off_append_cons (hr : r.is event handler = true)
    (h : ∀ r ∈ after, r.is event handler = false) :
    off event handler (before ++ r :: after) = before ++ after := by
  have hafter : ∀ r ∈ after.reverse, ¬ r.is event handler = true := by simpa using h
  rw [off, List.reverse_append, List.reverse_cons, List.append_assoc, List.eraseP_append_right _ hafter]
  simp [hr]

omit [DecidableEq F] in
@[simp] theorem called_append : called event (before ++ after) =
    called event before ++ called event after :=
  List.filter_append _ _

end Emitter
