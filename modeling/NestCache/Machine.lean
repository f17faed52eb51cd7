import Mathlib.Tactic.Common

/-!
# Machines: labelled steps with visible outputs

A `Machine` takes actions one at a time, moves to a next state and emits what
an observer can see.  An action that is not enabled has no step.  Runs are
finite lists of actions.  One induction serves every statement about runs:

* `runFrom_induction` — a relation between the actions taken, the outputs
  emitted and the state reached holds of every run if one step extends it;
* `run_induction` — the same from the initial state;
* `invariant` — the special case that looks at the state only;
* `runFrom_forall` — from a state with a stable property, every later output
  has what the property promises of one step;
* `run_lockstep` — a machine that answers every step of another one with the
  same outputs has all its runs;
* `run_component` — a run shows each component a run of its own;
* `run_output` — an output comes from a step of the run that it cuts.

`Sometime` says what held at some moment of a run.  `Runs` are the runs of a
labelled relation, which need not be a function; `Runs.map` carries them over to
another relation.
-/

/-- Initial state and partial step function, with outputs. -/
structure Machine (σ α ω : Type) where
  init : σ
  step : σ → α → Option (σ × List ω)

namespace Machine

variable {σ α ω : Type} (m : Machine σ α ω)

/-- Take a list of actions from a state, collecting the outputs. -/
def runFrom : σ → List α → Option (σ × List ω)
  | s, [] => some (s, [])
  | s, a :: as =>
      match m.step s a with
      | none => none
      | some (s', out) => (runFrom s' as).map (fun (t, rest) => (t, out ++ rest))

/-- A run from the initial state. -/
def run (as : List α) : Option (σ × List ω) := m.runFrom m.init as

@[simp] theorem runFrom_nil (s : σ) : m.runFrom s [] = some (s, []) := rfl

/-- Take the first step of a successful run apart. -/
theorem runFrom_cons {s t : σ} {a : α} {as : List α} {out : List ω}
    (h : m.runFrom s (a :: as) = some (t, out)) :
    ∃ s' first rest, m.step s a = some (s', first) ∧
      m.runFrom s' as = some (t, rest) ∧ out = first ++ rest := by
  simp only [runFrom] at h
  cases hstep : m.step s a with
  | none => simp [hstep] at h
  | some p =>
      obtain ⟨s', first⟩ := p
      simp only [hstep, Option.map_eq_some_iff, Prod.mk.injEq, Prod.exists] at h
      obtain ⟨t', rest, hrest, rfl, rfl⟩ := h
      exact ⟨s', first, rest, rfl, hrest, rfl⟩

/-- **History induction.**  A relation between the actions so far, the outputs
so far and the state holds of every run from `s` if one step extends it. -/
theorem runFrom_induction {I : List α → List ω → σ → Prop} {s t : σ} {as : List α}
    {out : List ω} (hinit : I [] [] s)
    (hstep : ∀ hist seen s a s' out, I hist seen s → m.step s a = some (s', out) →
      I (hist ++ [a]) (seen ++ out) s')
    (h : m.runFrom s as = some (t, out)) : I as out t := by
  suffices key : ∀ (bs : List α) hist seen u, I hist seen u → ∀ out,
      m.runFrom u bs = some (t, out) → I (hist ++ bs) (seen ++ out) t by
    simpa using key as [] [] s hinit out h
  intro bs
  induction bs with
  | nil =>
      intro hist seen u hu out hrun
      obtain ⟨rfl, rfl⟩ : u = t ∧ [] = out := by simpa using hrun
      simpa using hu
  | cons b bs ih =>
      intro hist seen u hu out hrun
      obtain ⟨u', first, rest, hb, hrest, rfl⟩ := m.runFrom_cons hrun
      simpa using ih (hist ++ [b]) (seen ++ first) u' (hstep _ _ _ _ _ _ hu hb) rest hrest

/-- History induction from the initial state. -/
theorem run_induction {I : List α → List ω → σ → Prop}
    (hinit : I [] [] m.init)
    (hstep : ∀ hist seen s a s' out, I hist seen s → m.step s a = some (s', out) →
      I (hist ++ [a]) (seen ++ out) s')
    {as : List α} {s : σ} {out : List ω} (h : m.run as = some (s, out)) : I as out s :=
  m.runFrom_induction hinit hstep h

/-- **State invariants.** -/
theorem invariant {I : σ → Prop} (hinit : I m.init)
    (hstep : ∀ s a s' out, I s → m.step s a = some (s', out) → I s')
    {as : List α} {s : σ} {out : List ω} (h : m.run as = some (s, out)) : I s :=
  m.run_induction (I := fun _ _ s => I s) hinit
    (fun _ _ s a s' out hs ha => hstep s a s' out hs ha) h

/-- **Output rule.**  From a state with a stable property, every output of a
later run satisfies what one step promises. -/
theorem runFrom_forall {I : σ → Prop} {Q : ω → Prop}
    (hstep : ∀ s a s' out, I s → m.step s a = some (s', out) → I s' ∧ ∀ o ∈ out, Q o)
    {s t : σ} {as : List α} {out : List ω} (hs : I s)
    (h : m.runFrom s as = some (t, out)) : ∀ o ∈ out, Q o := by
  refine (m.runFrom_induction (I := fun _ out s => I s ∧ ∀ o ∈ out, Q o) ⟨hs, by simp⟩ ?_ h).2
  intro _ seen s a s' more hseen ha
  obtain ⟨hs', hmore⟩ := hstep s a s' more hseen.1 ha
  refine ⟨hs', fun o ho => ?_⟩
  rcases List.mem_append.mp ho with ho | ho
  · exact hseen.2 o ho
  · exact hmore o ho

/-- **Lockstep.**  A relation under which every step is answered by a step with
the same outputs carries runs over. -/
theorem runFrom_lockstep {τ : Type} {m : Machine σ α ω} {m' : Machine τ α ω} {Rel : σ → τ → Prop}
    (hstep : ∀ s t a s' out, Rel s t → m.step s a = some (s', out) →
      ∃ t', m'.step t a = some (t', out) ∧ Rel s' t')
    {as : List α} {s s' : σ} {t : τ} {out : List ω} (hrel : Rel s t)
    (h : m.runFrom s as = some (s', out)) : ∃ t', m'.runFrom t as = some (t', out) ∧ Rel s' t' := by
  induction as generalizing s t out with
  | nil =>
      obtain ⟨rfl, rfl⟩ : s = s' ∧ [] = out := by simpa using h
      exact ⟨t, rfl, hrel⟩
  | cons a as ih =>
      obtain ⟨s₁, first, rest, ha, hrest, rfl⟩ := m.runFrom_cons h
      obtain ⟨t₁, hfirst, hrel₁⟩ := hstep s t a s₁ first hrel ha
      obtain ⟨t', hlater, hrel'⟩ := ih hrel₁ hrest
      exact ⟨t', by simp [runFrom, hfirst, hlater], hrel'⟩

/-- Lockstep from the initial states. -/
theorem run_lockstep {τ : Type} {m : Machine σ α ω} {m' : Machine τ α ω} {Rel : σ → τ → Prop}
    (hinit : Rel m.init m'.init)
    (hstep : ∀ s t a s' out, Rel s t → m.step s a = some (s', out) →
      ∃ t', m'.step t a = some (t', out) ∧ Rel s' t')
    {as : List α} {s : σ} {out : List ω} (h : m.run as = some (s, out)) :
    ∃ t, m'.run as = some (t, out) ∧ Rel s t :=
  runFrom_lockstep hstep hinit h

/-- A cut of a longer history is a cut of the first part or of the rest. -/
theorem cut_append {out more before since : List ω} {x : ω}
    (h : out ++ more = before ++ x :: since) :
    (∃ rest, out = before ++ x :: rest ∧ since = rest ++ more) ∨
      ∃ start, more = start ++ x :: since ∧ before = out ++ start := by
  rcases List.append_eq_append_iff.mp h with ⟨start, rfl, hmore⟩ | ⟨rest, rfl, hrest⟩
  · exact .inr ⟨start, hmore, rfl⟩
  · cases rest with
    | nil => exact .inr ⟨[], by simpa using hrest.symm, by simp⟩
    | cons y rest =>
        obtain ⟨rfl, rfl⟩ := List.cons.inj hrest
        exact .inl ⟨rest, rfl, rfl⟩

/-- A cut of one output. -/
theorem cut_singleton {start rest : List ω} {x y : ω} (h : start ++ x :: rest = [y]) :
    start = [] ∧ x = y := by
  cases start with
  | nil => exact ⟨rfl, (List.cons.inj h).1⟩
  | cons _ start => simp at h

/-- One step more. -/
theorem runFrom_snoc {s t u : σ} {as : List α} {a : α} {out more : List ω}
    (h : m.runFrom s as = some (t, out)) (ha : m.step t a = some (u, more)) :
    m.runFrom s (as ++ [a]) = some (u, out ++ more) := by
  induction as generalizing s out with
  | nil =>
      obtain ⟨rfl, rfl⟩ : s = t ∧ [] = out := by simpa using h
      simp [runFrom, ha]
  | cons b as ih =>
      obtain ⟨s', first, rest, hb, hrest, rfl⟩ := m.runFrom_cons h
      simp [runFrom, hb, ih hrest]

/-- **Outputs come from steps.**  A run that is cut before an output was, up to
there, a run that the output's step extends. -/
theorem run_output {as : List α} {s : σ} {out before after : List ω} {o : ω}
    (h : m.run as = some (s, out)) (hout : out = before ++ o :: after) :
    ∃ earlier a t t' seen start rest, earlier <+: as ∧ m.run earlier = some (t, seen) ∧
      m.step t a = some (t', start ++ o :: rest) ∧ before = seen ++ start := by
  refine (m.run_induction (I := fun as out s => m.run as = some (s, out) ∧
    ∀ before after, out = before ++ o :: after →
      ∃ earlier a t t' seen start rest, earlier <+: as ∧ m.run earlier = some (t, seen) ∧
        m.step t a = some (t', start ++ o :: rest) ∧ before = seen ++ start)
    ⟨rfl, by simp⟩ ?_ h).2 before after hout
  rintro hist seen s a s' more ⟨hran, hseen⟩ ha
  refine ⟨m.runFrom_snoc hran ha, fun before after hcut => ?_⟩
  rcases cut_append hcut with ⟨rest, hrest, -⟩ | ⟨start, rfl, rfl⟩
  · obtain ⟨earlier, b, t, t', seen', start, rest, hearlier, hrun, hb, hbefore⟩ :=
      hseen before rest hrest
    exact ⟨earlier, b, t, t', seen', start, rest, hearlier.trans (List.prefix_append _ _), hrun,
      hb, hbefore⟩
  · exact ⟨hist, a, s, s', seen, start, after, List.prefix_append _ _, hran, ha, rfl⟩

/-- At some moment of a run, no later than these actions and outputs, the state
was such. -/
def Sometime (as : List α) (out : List ω) (P : σ → Prop) : Prop :=
  ∃ earlier s seen, earlier <+: as ∧ seen <+: out ∧ m.run earlier = some (s, seen) ∧ P s

variable {m} in
/-- What holds at the end of a run held at some moment of it. -/
theorem Sometime.now {as : List α} {out : List ω} {P : σ → Prop} {s : σ}
    (h : m.run as = some (s, out)) (hs : P s) : m.Sometime as out P :=
  ⟨as, s, out, List.prefix_rfl, List.prefix_rfl, h, hs⟩

variable {m} in
/-- What held at some moment of a run did so at some moment of a longer one. -/
theorem Sometime.mono {as as' : List α} {out out' : List ω} {P : σ → Prop}
    (h : m.Sometime as out P) (has : as <+: as') (hout : out <+: out') :
    m.Sometime as' out' P := by
  obtain ⟨earlier, s, seen, hearlier, hseen, hrun, hs⟩ := h
  exact ⟨earlier, s, seen, hearlier.trans has, hseen.trans hout, hrun, hs⟩

variable {m} in
/-- A moment later. -/
theorem Sometime.append {as : List α} {out : List ω} {P : σ → Prop} (h : m.Sometime as out P)
    (a : α) (more : List ω) : m.Sometime (as ++ [a]) (out ++ more) P :=
  h.mono (List.prefix_append _ _) (List.prefix_append _ _)

/-- Run induction whose step may use what is known of the runs so far. -/
theorem run_history {I : List ω → σ → Prop} (hinit : I [] m.init)
    (hstep : ∀ hist seen s a s' out, m.run hist = some (s, seen) → I seen s →
      m.step s a = some (s', out) → I (seen ++ out) s')
    {as : List α} {s : σ} {out : List ω} (h : m.run as = some (s, out)) : I out s :=
  (m.run_induction (I := fun hist seen s => m.run hist = some (s, seen) ∧ I seen s) ⟨rfl, hinit⟩
    (fun hist seen s a s' out hseen ha =>
      ⟨m.runFrom_snoc hseen.1 ha, hstep hist seen s a s' out hseen.1 hseen.2 ha⟩) h).2

/-- **Components.** When every step of a machine shows a component of
its state either rest or take a step of its own, every run shows it a
run of its own. -/
theorem run_component {τ β ο : Type} {m : Machine σ α ω} {part : Machine τ β ο} (view : σ → τ)
    (seen : ω → Option ο) (acts : α → β → Prop) (hinit : view m.init = part.init)
    (hstep : ∀ s a s' out, m.step s a = some (s', out) →
      (view s' = view s ∧ out.filterMap seen = []) ∨
        ∃ b, acts a b ∧ part.step (view s) b = some (view s', out.filterMap seen))
    {as : List α} {s : σ} {out : List ω} (h : m.run as = some (s, out)) :
    ∃ bs, (∀ b ∈ bs, ∃ a ∈ as, acts a b) ∧ part.run bs = some (view s, out.filterMap seen) := by
  refine m.run_induction (I := fun as out s => ∃ bs, (∀ b ∈ bs, ∃ a ∈ as, acts a b) ∧
    part.run bs = some (view s, out.filterMap seen)) ⟨[], by simp, by simp [run, hinit]⟩ ?_ h
  rintro hist before s a s' more ⟨bs, hacts, hbs⟩ ha
  rw [List.filterMap_append]
  rcases hstep s a s' more ha with ⟨hrest, hnone⟩ | ⟨b, hact, hb⟩
  · rw [hrest, hnone, List.append_nil]
    refine ⟨bs, fun b hmem => ?_, hbs⟩
    obtain ⟨a', ha', hact⟩ := hacts b hmem
    exact ⟨a', List.mem_append_left _ ha', hact⟩
  · refine ⟨bs ++ [b], fun b' hmem => ?_, part.runFrom_snoc hbs hb⟩
    rcases List.mem_append.mp hmem with hmem | hmem
    · obtain ⟨a', ha', hact⟩ := hacts b' hmem
      exact ⟨a', List.mem_append_left _ ha', hact⟩
    · obtain rfl := List.mem_singleton.mp hmem
      exact ⟨a, by simp, hact⟩

end Machine

/-! ## Relations -/

/-- Steps of a labelled relation, one after the other. -/
inductive Runs {σ ε : Type} (step : σ → ε → σ → Prop) : σ → List ε → σ → Prop
  | nil (s : σ) : Runs step s [] s
  | cons {s s' t : σ} {e : ε} {es : List ε} (first : step s e s') (rest : Runs step s' es t) :
      Runs step s (e :: es) t

namespace Runs

variable {σ τ ε : Type} {step : σ → ε → σ → Prop} {s t u : σ} {e : ε} {es es' : List ε}

/-- A run goes on from where another ended; the induction is on the first. -/
theorem append (h : Runs step s es t) (h' : Runs step t es' u) : Runs step s (es ++ es') u := by
  induction h with
  | nil => exact h'
  | cons first _ ih => exact .cons first (ih h')

/-- A run goes on by one step. -/
theorem snoc (h : Runs step s es t) (last : step t e u) : Runs step s (es ++ [e]) u :=
  h.append (.cons last (.nil u))

/-- Cut a run between two of its labels. -/
theorem of_append (h : Runs step s (es ++ es') u) :
    ∃ t, Runs step s es t ∧ Runs step t es' u := by
  induction es generalizing s with
  | nil => exact ⟨s, .nil s, h⟩
  | cons e es ih =>
      obtain _ | ⟨first, rest⟩ := h
      obtain ⟨t, hes, hes'⟩ := ih rest
      exact ⟨t, .cons first hes, hes'⟩

/-- Take the first step apart. -/
theorem of_cons (h : Runs step s (e :: es) u) : ∃ t, step s e t ∧ Runs step t es u := by
  obtain _ | ⟨first, rest⟩ := h
  exact ⟨_, first, rest⟩

/-- **Invariants**, over the labels that occur. -/
theorem invariant {I : σ → Prop} (h : Runs step s es t) (hs : I s)
    (hstep : ∀ s e s', e ∈ es → I s → step s e s' → I s') : I t := by
  induction h with
  | nil => exact hs
  | cons first _ ih =>
      exact ih (hstep _ _ _ List.mem_cons_self hs first) fun s e s' he =>
        hstep s e s' (List.mem_cons_of_mem _ he)

/-- Induction on the run from its beginning, with what has happened. -/
theorem snoc_induction {P : List ε → σ → Prop} (h : Runs step s es t) (hnil : P [] s)
    (hstep : ∀ before e after u v, es = before ++ e :: after → P before u → step u e v →
      P (before ++ [e]) v) : P es t := by
  suffices hfrom : ∀ {s t : σ} {rest : List ε}, Runs step s rest t →
      ∀ before, es = before ++ rest → P before s → P es t from hfrom h [] rfl hnil
  intro s t rest hrest
  induction hrest with
  | nil s =>
      rintro before rfl hbefore
      simpa using hbefore
  | @cons s s' t e rest first _ ih =>
      intro before hes hbefore
      exact ih (before ++ [e]) (by simpa using hes) (hstep before e rest s s' hes hbefore first)

/-- **Refinement.** An abstraction of the states that takes steps to steps
takes runs to runs. -/
theorem map {step' : τ → ε → τ → Prop} {f : σ → τ} (h : Runs step s es t)
    (hstep : ∀ s e t, step s e t → step' (f s) e (f t)) : Runs step' (f s) es (f t) := by
  induction h with
  | nil => exact .nil _
  | cons first _ ih => exact .cons (hstep _ _ _ first) ih

end Runs
