import NestCache.Dialogue

/-!
# Footprints: servers that touch only the keys a command names

A `LocalServer` holds a map from keys to values and anything else it may
consult.  A command with a footprint reads and writes the map at its keys only;
a command without one is not constrained.

When every command of a dialogue has its footprint in a region, an execution
keeps the map outside the region (`exec_frame`), and neither its result nor its
commands depend on the map there (`exec_agree`).
-/

/-- A server over keys `K` with values `W` and surroundings `E`. -/
structure LocalServer (C : Type) (R : C → Type) (K W E : Type)
    (footprint : C → Option (List K)) where
  answer : E × (K → W) → (c : C) → (E × (K → W)) × R c
  frame : ∀ s c keys, footprint c = some keys → ∀ key ∉ keys, (answer s c).1.2 key = s.2 key
  surroundings : ∀ e m m' c keys, footprint c = some keys → (∀ key ∈ keys, m key = m' key) →
    (answer (e, m) c).1.1 = (answer (e, m') c).1.1
  reply : ∀ e m m' c keys, footprint c = some keys → (∀ key ∈ keys, m key = m' key) →
    (answer (e, m) c).2 = (answer (e, m') c).2
  writes : ∀ e m m' c keys, footprint c = some keys → (∀ key ∈ keys, m key = m' key) →
    ∀ key ∈ keys, (answer (e, m) c).1.2 key = (answer (e, m') c).1.2 key

/-- The same surroundings, and maps that are the same in a region. -/
structure AgreeOn {E K W : Type} (region : K → Prop) (s s' : E × (K → W)) : Prop where
  surroundings : s.1 = s'.1
  maps : ∀ key, region key → s.2 key = s'.2 key

/-- The command reads and writes in the region only. -/
def Within {C K : Type} (footprint : C → Option (List K)) (region : K → Prop) (c : C) : Prop :=
  ∃ keys, footprint c = some keys ∧ ∀ key ∈ keys, region key

namespace LocalServer

variable {C K W E ε α : Type} {R : C → Type} {footprint : C → Option (List K)}
  (server : LocalServer C R K W E footprint) {region : K → Prop}

/-- A command within the region keeps the map outside. -/
theorem answer_frame {c : C} (h : Within footprint region c) (s : E × (K → W)) {key : K}
    (hkey : ¬ region key) : (server.answer s c).1.2 key = s.2 key := by
  obtain ⟨keys, hkeys, hregion⟩ := h
  exact server.frame s c keys hkeys key fun hmem => hkey (hregion key hmem)

/-- A command within the region does the same on maps that agree there. The
reply is the same, what was within the region is written the same, and the rest
is not written at all. -/
theorem answer_agree {c : C} (h : Within footprint region c) {s s' : E × (K → W)}
    (hagree : AgreeOn region s s') :
    (server.answer s c).2 = (server.answer s' c).2 ∧
      AgreeOn region (server.answer s c).1 (server.answer s' c).1 := by
  obtain ⟨keys, hkeys, hregion⟩ := h
  obtain ⟨e, m⟩ := s
  obtain ⟨e', m'⟩ := s'
  obtain rfl : e = e' := hagree.surroundings
  have hsame : ∀ key ∈ keys, m key = m' key := fun key hmem => hagree.maps key (hregion key hmem)
  refine ⟨server.reply e m m' c keys hkeys hsame,
    server.surroundings e m m' c keys hkeys hsame, fun key hkey => ?_⟩
  by_cases hmem : key ∈ keys
  · exact server.writes e m m' c keys hkeys hsame key hmem
  · rw [server.frame _ c keys hkeys key hmem, server.frame _ c keys hkeys key hmem]
    exact hagree.maps key hkey

variable {p : Dialogue C R ε α}

/-- **Frame.** -/
theorem exec_frame (hp : p.Sends (fun _ _ => True) (Within footprint region)) (s : E × (K → W))
    {key : K} (hkey : ¬ region key) : (p.exec server.answer s).state.2 key = s.2 key := by
  induction p generalizing s with
  | done a => rfl
  | fail e => rfl
  | send c k ih =>
      have hrest := ih (server.answer s c).2 (hp.2 _ trivial) (server.answer s c).1
      exact hrest.trans (server.answer_frame hp.1 s hkey)

/-- **Independence.** A program whose commands stay within the region cannot
tell two maps apart that agree there; the induction is on the program. -/
theorem exec_agree (hp : p.Sends (fun _ _ => True) (Within footprint region))
    {s s' : E × (K → W)} (hagree : AgreeOn region s s') :
    (p.exec server.answer s).result = (p.exec server.answer s').result ∧
      (p.exec server.answer s).sent = (p.exec server.answer s').sent ∧
      AgreeOn region (p.exec server.answer s).state (p.exec server.answer s').state := by
  induction p generalizing s s' with
  | done a => exact ⟨rfl, rfl, hagree⟩
  | fail e => exact ⟨rfl, rfl, hagree⟩
  | send c k ih =>
      obtain ⟨hreply, hnext⟩ := server.answer_agree hp.1 hagree
      simp only [Dialogue.exec_send, Dialogue.Ending.after, List.singleton_append]
      rw [hreply]
      obtain ⟨hresult, hsent, hstate⟩ := ih _ (hp.2 _ trivial) hnext
      exact ⟨hresult, by rw [hsent], hstate⟩

end LocalServer
