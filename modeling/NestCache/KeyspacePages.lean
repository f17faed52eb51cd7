import NestCache.AdminGuarantees

/-!
# Paging through a scope

A caller lists a scope page by page: it feeds the cursor of each page to the
next call until a page carries none.  The server goes through one `SCAN`
iteration meanwhile, a finite chain of steps that each return a cursor and a
batch and of which only the last returns the cursor `0`.

A page ends where the chain ends or where the keys collected reach the limit,
after a whole batch (`scanLoop_exec`).  So the pages split the chain, and nothing
is lost or repeated between them.  Batches are pushed as the arguments of one
call: a batch with more keys than the engine takes arguments ends the listing
with a raw error, and `listPages_exhaustive_iff` says that nothing else does.
-/

namespace NestCache

/-- What one `SCAN` step returns. -/
structure ScanStep where
  cursor : Text
  batch : List Text

/-- The keys of some steps, in order. -/
def batches (steps : List ScanStep) : List Text := steps.flatMap (·.batch)

@[simp] theorem batches_nil : batches [] = [] := rfl

@[simp] theorem batches_cons (step : ScanStep) (steps : List ScanStep) :
    batches (step :: steps) = step.batch ++ batches steps := rfl

@[simp] theorem batches_append (first second : List ScanStep) :
    batches (first ++ second) = batches first ++ batches second := by
  simp [batches]

/-- The rest of an iteration: only its last step returns the end cursor. -/
inductive ScanChain : List ScanStep → Prop
  | last (batch : List Text) : ScanChain [⟨SCAN_END_CURSOR, batch⟩]
  | more {step : ScanStep} {steps : List ScanStep} (hcursor : step.cursor ≠ SCAN_END_CURSOR)
      (hsteps : ScanChain steps) : ScanChain (step :: steps)

/-- A server that goes through an iteration.  `At cursor steps` holds of the
states in which a caller holds this cursor and these steps are still to come;
describing keys answers and does not disturb it. -/
structure ScanSession {σ : Type} (server : σ → (c : ReaderCommand) → σ × ReaderReply c)
    (pattern : Text) (limit : Nat) where
  At : Text → List ScanStep → σ → Prop
  scan : ∀ {cursor step steps s}, At cursor (step :: steps) s →
    (server s (.scan cursor pattern limit)).2 = .ok (step.cursor, step.batch) ∧
    At step.cursor steps (server s (.scan cursor pattern limit)).1
  pipeline : ∀ {cursor steps s} (commands : List PipelineCommand), At cursor steps s →
    (∃ replies, (server s (.pipeline commands)).2 = .ok replies) ∧
    At cursor steps (server s (.pipeline commands)).1

namespace CacheAdminService

/-- A caller that lists a scope to its end, from a cursor on: at most `fuel`
pages of at most `scans` round trips each. -/
def listPages (options : ResolvedAdminOptions) (connection : ConnectionStatus)
    (argumentLimit scans : Nat) (scopeId : Text) (includeSize : Option Bool) :
    (fuel : Nat) → (cursor : Option Text) → ReaderDialogue (Option (List KeyspacePage))
  | 0, _ => return none
  | fuel + 1, cursor => do
      let page ← listKeys options connection argumentLimit scans scopeId { cursor, includeSize }
      match page with
      | none => return none
      | some page =>
        match page.cursor with
        | none => return some [page]
        | some next => do
            let pages ← listPages options connection argumentLimit scans scopeId includeSize fuel
              (some next)
            return pages.map (page :: ·)

section

variable {σ : Type} {server : σ → (c : ReaderCommand) → σ × ReaderReply c}

/-- How far a page gets: the steps it takes, the steps it leaves and the cursor
it leaves off at. -/
structure PageEnd (limit : Nat) (collected : Nat) (rest : List ScanStep) (next : Text) :
    Prop where
  stops : next = SCAN_END_CURSOR → rest = []
  continues : next ≠ SCAN_END_CURSOR → ScanChain rest ∧ limit ≤ collected

/-- Every batch of the steps can be pushed in one call. -/
def FitsArguments (argumentLimit : Nat) (steps : List ScanStep) : Prop :=
  ∀ step ∈ steps, step.batch.length ≤ argumentLimit

/-- One round trip of the scan loop: the batch is pushed, or the push
throws. -/
theorem scanLoop_step {pattern cursor next : Text} {batch : List Text} {s : σ}
    (argumentLimit limit fuel : Nat) (keys : List Text)
    (hreply : (server s (.scan cursor pattern limit)).2 = .ok (next, batch)) :
    (scanLoop argumentLimit pattern limit (fuel + 1) cursor keys).exec server s =
      ((if argumentLimit < batch.length then .fail argumentRangeError
        else if next ≠ SCAN_END_CURSOR ∧ (keys ++ batch).length < limit then
          scanLoop argumentLimit pattern limit fuel next (keys ++ batch)
        else .done (some (next, keys ++ batch))).exec server
          (server s (.scan cursor pattern limit)).1).after [.scan cursor pattern limit] := by
  simp only [scanLoop, Dialogue.bind_eq, Dialogue.request, Dialogue.bind, Dialogue.exec_send]
  rw [hreply]
  by_cases hover : argumentLimit < batch.length
  · rw [if_pos hover]
    simp only [awaitReply, Dialogue.bind, spreadArguments_error hover]
    rfl
  · rw [if_neg hover]
    simp only [awaitReply, Dialogue.bind, spreadArguments_ok (Nat.not_lt.mp hover)]
    rfl

/-- **The scan loop.**  It takes whole batches from the chain until the chain
ends or the limit is reached, or throws at a batch that cannot be pushed. -/
theorem scanLoop_exec (argumentLimit : Nat) {pattern : Text} {limit : Nat}
    (session : ScanSession server pattern limit) {steps : List ScanStep}
    (hchain : ScanChain steps) {fuel : Nat} (hfuel : steps.length ≤ fuel) {cursor : Text} {s : σ}
    (hat : session.At cursor steps s) (keys : List Text) :
    (∃ taken rest next, steps = taken ++ rest ∧ taken ≠ [] ∧ FitsArguments argumentLimit taken ∧
      ((scanLoop argumentLimit pattern limit fuel cursor keys).exec server s).result =
        .ok (some (next, keys ++ batches taken)) ∧
      session.At next rest
        ((scanLoop argumentLimit pattern limit fuel cursor keys).exec server s).state ∧
      PageEnd limit (keys ++ batches taken).length rest next) ∨
    ¬ FitsArguments argumentLimit steps ∧
      ((scanLoop argumentLimit pattern limit fuel cursor keys).exec server s).result =
        .error argumentRangeError := by
  induction hchain generalizing fuel cursor s keys with
  | last batch =>
      obtain ⟨fuel, rfl⟩ : ∃ n, fuel = n + 1 := ⟨fuel - 1, by simp at hfuel; omega⟩
      obtain ⟨hreply, hnext⟩ := session.scan hat
      rw [scanLoop_step argumentLimit limit fuel keys hreply]
      by_cases hover : argumentLimit < batch.length
      · rw [if_pos hover]
        exact Or.inr ⟨fun h => absurd (h _ List.mem_cons_self) (Nat.not_le.mpr hover), rfl⟩
      · have hstop : ¬ (SCAN_END_CURSOR ≠ SCAN_END_CURSOR ∧ (keys ++ batch).length < limit) :=
          fun h => h.1 rfl
        rw [if_neg hover, if_neg hstop]
        refine Or.inl ⟨[⟨SCAN_END_CURSOR, batch⟩], [], SCAN_END_CURSOR, rfl, by simp, ?_, by simp,
          hnext, fun _ => rfl, fun h => absurd rfl h⟩
        simpa [FitsArguments] using hover
  | @more step steps hcursor hsteps ih =>
      obtain ⟨fuel, rfl⟩ : ∃ n, fuel = n + 1 := ⟨fuel - 1, by simp at hfuel; omega⟩
      obtain ⟨hreply, hnext⟩ := session.scan hat
      rw [scanLoop_step argumentLimit limit fuel keys hreply]
      by_cases hover : argumentLimit < step.batch.length
      · rw [if_pos hover]
        exact Or.inr ⟨fun h => absurd (h _ List.mem_cons_self) (Nat.not_le.mpr hover), rfl⟩
      have hfits : step.batch.length ≤ argumentLimit := Nat.not_lt.mp hover
      rw [if_neg hover]
      by_cases hlimit : (keys ++ step.batch).length < limit
      · rw [if_pos ⟨hcursor, hlimit⟩]
        rcases ih (by simpa using hfuel) hnext (keys ++ step.batch) with
          ⟨taken, rest, next, rfl, -, htaken, hresult, hstate, hend⟩ | ⟨hnot, hresult⟩
        · rw [List.append_assoc] at hresult hend
          exact Or.inl ⟨step :: taken, rest, next, rfl, by simp,
            List.forall_mem_cons.mpr ⟨hfits, htaken⟩, hresult, hstate, hend⟩
        · exact Or.inr ⟨fun h => hnot (List.forall_mem_cons.mp h).2, hresult⟩
      · rw [if_neg (fun h => hlimit h.2)]
        refine Or.inl ⟨[step], steps, step.cursor, rfl, by simp, ?_, by simp, hnext,
          fun h => absurd h hcursor, fun _ => ⟨hsteps, by simpa using hlimit⟩⟩
        simpa [FitsArguments] using hfits

/-- Describing the keys of a page keeps the iteration where it is. Pipelines do
not touch the cursor, nor what the server will answer to it. -/
theorem describeChunks_session {pattern : Text} {limit : Nat}
    (session : ScanSession server pattern limit) (includeSize : Bool) (perKey : Nat)
    (chunkSize : PositiveInteger) (keys : List Text) {cursor : Text} {steps : List ScanStep}
    {s : σ} (hat : session.At cursor steps s) :
    ∃ entries, ((describeChunks includeSize perKey chunkSize keys).exec server s).result =
        .ok entries ∧ entries.map (·.key) = keys ∧
      session.At cursor steps
        ((describeChunks includeSize perKey chunkSize keys).exec server s).state := by
  fun_induction describeChunks includeSize perKey chunkSize keys generalizing s with
  | case1 => exact ⟨[], rfl, rfl, hat⟩
  | case2 key rest chunk commands =>
      rename_i ih
      obtain ⟨⟨replies, hreply⟩, hat'⟩ := session.pipeline commands hat
      obtain ⟨entries, hresult, hkeys, hstate⟩ := ih hat'
      refine ⟨readChunk includeSize perKey replies chunk ++ entries, ?_, ?_, ?_⟩
      · rw [Dialogue.exec_send, hreply]
        simp [awaitReply, Dialogue.exec_bind_ok _ hresult]
      · rw [List.map_append, hkeys, readChunk_keys, List.take_append_drop]
      · rw [Dialogue.exec_send, hreply]
        simpa [awaitReply, Dialogue.exec_bind_ok _ hresult] using hstate

/-- The page a call returns for the cursor and keys its scan loop ended
with. -/
def pageOf (options : ResolvedAdminOptions) (scope : CacheScope) (includeSize : Bool)
    (next : Text) (entries : List KeyEntry) : KeyspacePage where
  scopeId := scope.id
  entries := entries
  sampledCount := entries.length
  sampledBytes := if includeSize then some (sumMeasured entries) else none
  isComplete := next == SCAN_END_CURSOR
  scanLimit := options.scanLimit.value
  cursor := if next == SCAN_END_CURSOR then none else some next

/-- **One page.**  A call of `listKeys` takes some steps of the chain, returns
exactly their keys and leaves off where its cursor points, or throws at a batch
that cannot be pushed. -/
theorem listKeys_exec {options : ResolvedAdminOptions} {scopeId : Text} {scope : CacheScope}
    (hscope : findScope options.scopes scopeId = .ok scope) (argumentLimit : Nat)
    (session : ScanSession server scope.pattern options.scanLimit.value)
    {steps : List ScanStep} (hchain : ScanChain steps) {scans : Nat} (hscans : steps.length ≤ scans)
    (listOptions : ListKeysOptions) {s : σ}
    (hat : session.At (listOptions.cursor.getD SCAN_END_CURSOR) steps s) :
    let ending :=
      (listKeys options (.connected .redis) argumentLimit scans scopeId listOptions).exec server s
    (∃ taken rest next entries, steps = taken ++ rest ∧ taken ≠ [] ∧
      FitsArguments argumentLimit taken ∧ entries.map (·.key) = batches taken ∧
      PageEnd options.scanLimit.value entries.length rest next ∧
      ending.result =
        .ok (some (pageOf options scope (listOptions.includeSize == some true) next entries)) ∧
      session.At next rest ending.state) ∨
    ¬ FitsArguments argumentLimit steps ∧ ending.result = .error argumentRangeError := by
  intro ending
  have hclient : cacheServiceGetClient (.connected .redis) = .ok .redis := rfl
  rcases scanLoop_exec argumentLimit session hchain hscans hat [] with
    ⟨taken, rest, next, hsplit, htaken, hfits, hresult, hstate, hend⟩ | ⟨hnot, hresult⟩
  · rw [List.nil_append] at hresult hend
    obtain ⟨entries, hdescribed, hkeys, hstate'⟩ :
        ∃ entries, ((describeAll options (batches taken)
            (listOptions.includeSize == some true)).exec server
            ((scanLoop argumentLimit scope.pattern options.scanLimit.value scans
              (listOptions.cursor.getD SCAN_END_CURSOR) []).exec server s).state).result =
            .ok entries ∧ entries.map (·.key) = batches taken ∧ session.At next rest
          ((describeAll options (batches taken) (listOptions.includeSize == some true)).exec
            server ((scanLoop argumentLimit scope.pattern options.scanLimit.value scans
              (listOptions.cursor.getD SCAN_END_CURSOR) []).exec server s).state).state :=
      describeChunks_session session _ _ _ _ hstate
    have hlength : entries.length = (batches taken).length := by rw [← hkeys, List.length_map]
    refine Or.inl ⟨taken, rest, next, entries, hsplit, htaken, hfits, hkeys, by rwa [hlength], ?_,
      ?_⟩
    · simp only [ending, listKeys, hscope, hclient, Dialogue.ofExcept, Dialogue.bind_eq,
        Dialogue.bind, Dialogue.exec_bind_ok _ hresult, Dialogue.exec_bind_ok _ hdescribed,
        Dialogue.Ending.after_result]
      rfl
    · simp only [ending, listKeys, hscope, hclient, Dialogue.ofExcept, Dialogue.bind_eq,
        Dialogue.bind, Dialogue.exec_bind_ok _ hresult, Dialogue.exec_bind_ok _ hdescribed,
        Dialogue.Ending.after_state]
      exact hstate'
  · refine Or.inr ⟨hnot, ?_⟩
    simp only [ending, listKeys, hscope, hclient, Dialogue.ofExcept, Dialogue.bind_eq,
      Dialogue.bind, Dialogue.exec_bind_error _ hresult]

/-- What the pages of an iteration are: they split its keys in order, each but
the last is full and names where to go on, and the last is complete. -/
structure PagesCover (limit : Nat) (steps : List ScanStep) (pages : List KeyspacePage) :
    Prop where
  keys : pages.flatMap (fun page => page.entries.map (·.key)) = batches steps
  full : ∀ page ∈ pages.dropLast, limit ≤ page.entries.length ∧ page.isComplete = false ∧
    ∃ next, page.cursor = some next ∧ next ≠ SCAN_END_CURSOR
  last : ∃ page, pages.getLast? = some page ∧ page.isComplete = true ∧ page.cursor = none

/-- One page in front of the pages of the rest. Its keys come from the steps in
front, it is full, and its cursor leads to the rest. -/
theorem PagesCover.cons {limit : Nat} {taken rest : List ScanStep} {page : KeyspacePage}
    {pages : List KeyspacePage} (hcover : PagesCover limit rest pages)
    (hkeys : page.entries.map (·.key) = batches taken) (hfull : limit ≤ page.entries.length)
    (hopen : page.isComplete = false)
    (hcursor : ∃ next, page.cursor = some next ∧ next ≠ SCAN_END_CURSOR) :
    PagesCover limit (taken ++ rest) (page :: pages) := by
  obtain ⟨last, hlast, hcomplete⟩ := hcover.last
  have hne : pages ≠ [] := by
    rintro rfl
    simp at hlast
  refine ⟨?_, ?_, last, ?_, hcomplete⟩
  · rw [List.flatMap_cons, hkeys, hcover.keys, batches_append]
  · rw [List.dropLast_cons_of_ne_nil hne]
    intro p hp
    rcases List.mem_cons.mp hp with rfl | hp
    · exact ⟨hfull, hopen, hcursor⟩
    · exact hcover.full p hp
  · rw [List.getLast?_cons_of_ne_nil hne, hlast]

/-- Listing on from any point of an iteration. The induction is on the number
of steps that are left: a page that is listed takes at least one of them. -/
theorem listPages_exec {options : ResolvedAdminOptions} {scopeId : Text} {scope : CacheScope}
    (hscope : findScope options.scopes scopeId = .ok scope) (argumentLimit : Nat)
    (session : ScanSession server scope.pattern options.scanLimit.value) {scans : Nat}
    (includeSize : Option Bool) {fuel : Nat} {steps : List ScanStep} (hchain : ScanChain steps)
    (hscans : steps.length ≤ scans) (hfuel : steps.length ≤ fuel) {cursor : Option Text} {s : σ}
    (hat : session.At (cursor.getD SCAN_END_CURSOR) steps s) :
    let result := ((listPages options (.connected .redis) argumentLimit scans scopeId includeSize
      fuel cursor).exec server s).result
    FitsArguments argumentLimit steps ∧
        (∃ pages, result = .ok (some pages) ∧ PagesCover options.scanLimit.value steps pages) ∨
      ¬ FitsArguments argumentLimit steps ∧ result = .error argumentRangeError := by
  induction fuel generalizing steps cursor s with
  | zero =>
      obtain rfl : steps = [] := List.length_eq_zero_iff.mp (Nat.le_zero.mp hfuel)
      cases hchain
  | succ fuel ih =>
      intro result
      rcases listKeys_exec hscope argumentLimit session hchain hscans { cursor, includeSize }
          hat with
        ⟨taken, rest, next, entries, rfl, htaken, hfits, hkeys, hend, hresult, hstate⟩ |
          ⟨hnot, hresult⟩
      · have hshorter : rest.length < (taken ++ rest).length := by
          have := List.length_pos_of_ne_nil htaken
          rw [List.length_append]
          omega
        simp only [result, listPages, Dialogue.bind_eq, Dialogue.pure_eq,
          Dialogue.exec_bind_ok _ hresult, Dialogue.Ending.after_result]
        by_cases hnext : next = SCAN_END_CURSOR
        · -- the chain ends with this page
          obtain rfl := hend.stops hnext
          refine Or.inl ⟨by simpa using hfits,
            [pageOf options scope (includeSize == some true) next entries],
            by simp [pageOf, hnext], ?_⟩
          exact ⟨by simp [pageOf, hkeys], by simp, _, rfl, by simp [pageOf, hnext],
            by simp [pageOf, hnext]⟩
        · obtain ⟨hrest, hfull⟩ := hend.continues hnext
          have hcursor : (pageOf options scope (includeSize == some true) next entries).cursor =
              some next := by simp [pageOf, hnext]
          rw [hcursor]
          rcases @ih rest hrest (by omega) (by omega) (some next) _ hstate with
            ⟨hfits', pages, hpages, hcover⟩ | ⟨hnot, herror⟩
          · refine Or.inl ⟨List.forall_mem_append.mpr ⟨hfits, hfits'⟩,
              pageOf options scope (includeSize == some true) next entries :: pages, ?_,
              hcover.cons hkeys hfull (by simp [pageOf, hnext]) ⟨next, hcursor, hnext⟩⟩
            simp [Dialogue.exec_bind_ok _ hpages]
          · refine Or.inr ⟨fun h => hnot (List.forall_mem_append.mp h).2, ?_⟩
            simp [Dialogue.exec_bind_error _ herror]
      · refine Or.inr ⟨hnot, ?_⟩
        simp only [result, listPages, Dialogue.bind_eq, Dialogue.exec_bind_error _ hresult]

end

/-- **No key is lost or repeated between pages, as long as batches can be
pushed.** Against a server that goes through a `SCAN` iteration of a scope,
whatever its batches and the scan limit: listing page by page from the start
ends with pages whose keys are the keys of the batches in order, each page but
the last with at least the limit and a cursor to go on from, and only the last
complete, exactly when no batch has more keys than the engine takes arguments
in a call. Otherwise the listing rejects with the error of that call. -/
theorem listPages_exhaustive_iff {σ : Type}
    (server : σ → (c : ReaderCommand) → σ × ReaderReply c) (options : ResolvedAdminOptions)
    (scopeId : Text) (scope : CacheScope) (hscope : findScope options.scopes scopeId = .ok scope)
    (session : ScanSession server scope.pattern options.scanLimit.value)
    (steps : List ScanStep) (hchain : ScanChain steps) (s : σ)
    (hat : session.At SCAN_END_CURSOR steps s) (includeSize : Option Bool)
    (argumentLimit scans fuel : Nat) (hscans : steps.length ≤ scans)
    (hfuel : steps.length ≤ fuel) :
    let result := ((listPages options (.connected .redis) argumentLimit scans scopeId includeSize
      fuel none).exec server s).result
    ((∃ pages, result = .ok (some pages) ∧ PagesCover options.scanLimit.value steps pages) ↔
      ∀ step ∈ steps, step.batch.length ≤ argumentLimit) ∧
    ((∃ step ∈ steps, argumentLimit < step.batch.length) →
      result = .error argumentRangeError) := by
  intro result
  have hstart : session.At ((none : Option Text).getD SCAN_END_CURSOR) steps s := hat
  rcases listPages_exec hscope argumentLimit session includeSize hchain hscans hfuel hstart with
    ⟨hfits, hpages⟩ | ⟨hnot, herror⟩
  · refine ⟨iff_of_true hpages hfits, ?_⟩
    rintro ⟨step, hstep, hover⟩
    exact absurd (hfits step hstep) (Nat.not_le.mpr hover)
  · refine ⟨iff_of_false ?_ hnot, fun _ => herror⟩
    rintro ⟨pages, hok, -⟩
    have hsame := herror.symm.trans hok
    cases hsame

/-- A server that replays an iteration for callers that hold its cursor. -/
def replayServer : Text × List ScanStep → (c : ReaderCommand) →
    (Text × List ScanStep) × ReaderReply c
  | (expected, step :: steps), .scan cursor _ _ =>
      if cursor = expected then ((step.cursor, steps), .ok (step.cursor, step.batch))
      else ((expected, step :: steps), .error (.error "ERR invalid cursor".toList))
  | s, .pipeline _ => (s, .ok none)
  | s, c => (s, (downServer () c).2)

/-- Replaying is going through the iteration. -/
def replaySession (pattern : Text) (limit : Nat) : ScanSession replayServer pattern limit where
  At cursor steps s := s = (cursor, steps)
  scan := by
    intro cursor step steps s hat
    subst hat
    have hreply : replayServer (cursor, step :: steps) (.scan cursor pattern limit) =
        ((step.cursor, steps), .ok (step.cursor, step.batch)) := if_pos rfl
    rw [hreply]
    exact ⟨rfl, rfl⟩
  pipeline := by
    intro cursor steps s commands hat
    subst hat
    have hreply : replayServer (cursor, steps) (.pipeline commands) =
        ((cursor, steps), .ok none) := by
      cases steps <;> rfl
    rw [hreply]
    exact ⟨⟨none, rfl⟩, rfl⟩

/-- Three batches, one of them empty and one beyond the limit of two. -/
def threeBatches : List ScanStep :=
  [⟨"7".toList, []⟩, ⟨"3".toList, ["app:a".toList, "app:b".toList, "app:c".toList]⟩,
    ⟨SCAN_END_CURSOR, ["app:d".toList]⟩]

/-- These steps are a scan up to its end. -/
theorem threeBatches_chain : ScanChain threeBatches :=
  .more (by decide) (.more (by decide) (.last _))

/-- All three can be pushed. -/
theorem listPages_exhaustive_three :
    ∃ pages, ((listPages { adminOptions [appScope] with scanLimit := ⟨2, by decide⟩ }
        (.connected .redis) 120000 3 "cache".toList none 3 none).exec replayServer
        (SCAN_END_CURSOR, threeBatches)).result = .ok (some pages) ∧
      PagesCover 2 threeBatches pages := by
  refine (listPages_exhaustive_iff replayServer
    { adminOptions [appScope] with scanLimit := ⟨2, by decide⟩ } "cache".toList appScope rfl
    (replaySession _ _) threeBatches threeBatches_chain _ rfl none 120000 3 3 (Nat.le_refl 3)
    (Nat.le_refl 3)).1.mpr ?_
  simp [threeBatches]

/-- A server that returns a keyspace with one `SCAN`, more than can be
pushed. -/
theorem listPages_rejects {options : ResolvedAdminOptions} {scopeId : Text} {scope : CacheScope}
    (hscope : findScope options.scopes scopeId = .ok scope) {argumentLimit : Nat}
    {batch : List Text} (hover : argumentLimit < batch.length) :
    ((listPages options (.connected .redis) argumentLimit 1 scopeId none 1 none).exec replayServer
      (SCAN_END_CURSOR, [⟨SCAN_END_CURSOR, batch⟩])).result = .error argumentRangeError := by
  have hstart : (replaySession scope.pattern options.scanLimit.value).At
      ((none : Option Text).getD SCAN_END_CURSOR) [⟨SCAN_END_CURSOR, batch⟩]
      (SCAN_END_CURSOR, [⟨SCAN_END_CURSOR, batch⟩]) := rfl
  rcases listPages_exec hscope argumentLimit _ none (.last batch) (Nat.le_refl 1) (Nat.le_refl 1)
    hstart with ⟨hfits, -⟩ | ⟨-, herror⟩
  · exact absurd (hfits _ List.mem_cons_self) (Nat.not_le.mpr hover)
  · exact herror

/-- The keys of a scope with 200 000 of them. -/
def manyKeys : List Text :=
  (List.range 200000).map fun i => "app:".toList ++ Nat.toDigits 10 i

/-- **A batch that cannot be pushed.** With a scan limit of 200 000, a batch
of so many keys ends the listing on an engine that takes 120 000 arguments. -/
theorem listPages_overflows :
    ¬ ∃ pages, ((listPages { adminOptions [appScope] with scanLimit := ⟨200000, by decide⟩ }
        (.connected .redis) 120000 1 "cache".toList none 1 none).exec replayServer
        (SCAN_END_CURSOR, [⟨SCAN_END_CURSOR, manyKeys⟩])).result = .ok (some pages) ∧
      PagesCover 200000 [⟨SCAN_END_CURSOR, manyKeys⟩] pages := by
  have hover : 120000 < manyKeys.length := by
    rw [manyKeys, List.length_map, List.length_range]
    decide
  rintro ⟨pages, hok, -⟩
  have hscope : findScope (adminOptions [appScope]).scopes "cache".toList = .ok appScope := rfl
  have herror := @listPages_rejects
    { adminOptions [appScope] with scanLimit := ⟨200000, by decide⟩ } _ _ hscope _ _ hover
  have hsame := herror.symm.trans hok
  cases hsame

end CacheAdminService

end NestCache
