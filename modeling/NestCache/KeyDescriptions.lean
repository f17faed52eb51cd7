import NestCache.AdminGuarantees

/-!
# Describing the keys of a page

`describeAll` packs the commands of several keys into one pipeline and reads
the replies back by position.  On a keyspace that does not change meanwhile,
`describeAll_exec` says that the packing cannot be seen: every key gets the
entry that its own replies give, whatever the batch limit, and no pipeline is
longer than the limit allows.
-/

namespace NestCache

/-! ## Blocks of equal length -/

/-- The element at an offset in the concatenation of blocks of equal length is
the element of the block the offset falls into. -/
theorem getElem?_flatten_uniform {α : Type} {n j : Nat} (hj : j < n) (blocks : List (List α))
    (huniform : ∀ block ∈ blocks, block.length = n) (i : Nat) :
    blocks.flatten[i * n + j]? = blocks[i]?.bind (·[j]?) := by
  induction blocks generalizing i with
  | nil => simp
  | cons block blocks ih =>
      have hblock : block.length = n := huniform block List.mem_cons_self
      have hrest : ∀ b ∈ blocks, b.length = n := fun b hb =>
        huniform b (List.mem_cons_of_mem _ hb)
      cases i with
      | zero =>
          have hlt : j < block.length := by omega
          simp [List.getElem?_append_left hlt]
      | succ i =>
          have hshift : (i + 1) * n + j - block.length = i * n + j := by
            rw [Nat.succ_mul]
            omega
          have hge : block.length ≤ (i + 1) * n + j := by
            rw [Nat.succ_mul]
            omega
          rw [List.flatten_cons, List.getElem?_append_right hge, hshift, ih hrest i]
          simp

/-! ## One key -/

namespace CacheAdminService

/-- What a slot of a pipeline's result is read as: an error is no reading. -/
def slotReading (slot : PipelineReply) : RedisReply :=
  match slot with
  | (none, reply) => reply
  | (some _, _) => .null

/-- The entry of one key, from the replies to its own commands. -/
def describedEntry (answer : PipelineCommand → PipelineReply) (includeSize : Bool)
    (key : Text) : KeyEntry where
  key := key
  type := readKeyType (slotReading (answer (.type key)))
  ttl := readKeyTtl (slotReading (answer (.ttl key)))
  sizeBytes := if includeSize then readSizeBytes (slotReading (answer (.memoryUsage key))) else none

/-- A command that errored leaves its reading unknown and the others alone. The
type is then `other`, the time to live is missing and the size is null. -/
theorem describedEntry_unknown (answer : PipelineCommand → PipelineReply) (includeSize : Bool)
    (key : Text) :
    ((answer (.type key)).1 ≠ none → (describedEntry answer includeSize key).type = .other) ∧
    ((answer (.ttl key)).1 ≠ none → (describedEntry answer includeSize key).ttl = .missing) ∧
    ((answer (.memoryUsage key)).1 ≠ none →
      (describedEntry answer includeSize key).sizeBytes = none) := by
  have hnull : ∀ slot : PipelineReply, slot.1 ≠ none → slotReading slot = .null := by
    intro slot hslot
    obtain ⟨error, reply⟩ := slot
    cases error with
    | none => exact absurd rfl hslot
    | some reason => rfl
  refine ⟨fun h => ?_, fun h => ?_, fun h => ?_⟩
  · simp [describedEntry, hnull _ h, readKeyType]
  · simp [describedEntry, hnull _ h, readKeyTtl]
  · simp [describedEntry, hnull _ h, readSizeBytes]

/-- The commands one key costs. -/
def commandsPerKey (includeSize : Bool) : Nat :=
  DESCRIBE_COMMANDS_PER_KEY + if includeSize then SIZING_COMMANDS_PER_KEY else 0

/-- A key is described by as many commands as the stride counts. -/
theorem length_describeCommands (includeSize : Bool) (key : Text) :
    (describeCommands includeSize key).length = commandsPerKey includeSize := by
  cases includeSize <;> rfl

/-- The pipeline of a chunk. -/
def chunkCommands (includeSize : Bool) (chunk : List Text) : List PipelineCommand :=
  (chunk.map (describeCommands includeSize)).flatten

/-- The pipeline of a chunk has the stride for each of its keys. -/
theorem length_chunkCommands (includeSize : Bool) (chunk : List Text) :
    (chunkCommands includeSize chunk).length = chunk.length * commandsPerKey includeSize := by
  induction chunk with
  | nil => simp [chunkCommands]
  | cons key chunk ih =>
      have htail : ((chunk.map (describeCommands includeSize)).flatten).length =
          chunk.length * commandsPerKey includeSize := ih
      simp only [chunkCommands, List.map_cons, List.flatten_cons, List.length_append,
        length_describeCommands, htail, List.length_cons, Nat.succ_mul]
      omega

/-- The slot at the offset of a key holds the reply to that key's command. The
commands of the keys in front of it fill the slots below, a stride for each. -/
theorem replyAt_chunk (answer : PipelineCommand → PipelineReply) (includeSize : Bool)
    {chunk : List Text} {i : Nat} {key : Text} (hkey : chunk[i]? = some key) {j : Nat}
    {command : PipelineCommand} (hcommand : (describeCommands includeSize key)[j]? = some command) :
    replyAt (some ((chunkCommands includeSize chunk).map answer))
      (i * commandsPerKey includeSize + j) = slotReading (answer command) := by
  have hj : j < commandsPerKey includeSize := by
    obtain ⟨hlt, -⟩ := List.getElem?_eq_some_iff.mp hcommand
    rwa [length_describeCommands] at hlt
  have hslot : (chunkCommands includeSize chunk)[i * commandsPerKey includeSize + j]? =
      some command := by
    rw [chunkCommands, getElem?_flatten_uniform hj]
    · simp [hkey, hcommand]
    · intro block hblock
      obtain ⟨k, -, rfl⟩ := List.mem_map.mp hblock
      exact length_describeCommands includeSize k
  unfold replyAt slotReading
  rw [Option.bind_some, List.getElem?_map, hslot, Option.map_some]
  rcases answer command with ⟨_ | reason, reply⟩ <;> rfl

/-- **One chunk.** Read back by position, every key gets its own entry. The
stride times the position of the key is where its replies begin, whether the
size is asked for or not. -/
theorem readChunk_eq (answer : PipelineCommand → PipelineReply) (includeSize : Bool)
    (chunk : List Text) :
    readChunk includeSize (commandsPerKey includeSize)
      (some ((chunkCommands includeSize chunk).map answer)) chunk =
      chunk.map (describedEntry answer includeSize) := by
  apply List.ext_getElem?
  intro i
  rw [readChunk, List.getElem?_mapIdx, List.getElem?_map]
  cases hkey : chunk[i]? with
  | none => rfl
  | some key =>
      have htype := @replyAt_chunk answer includeSize chunk i key hkey 0 (.type key) (by
        cases includeSize <;> rfl)
      have httl := @replyAt_chunk answer includeSize chunk i key hkey 1 (.ttl key) (by
        cases includeSize <;> rfl)
      rw [Nat.add_zero] at htype
      simp only [Option.map_some, describedEntry, htype, httl]
      cases includeSize with
      | false => rfl
      | true =>
          have hsize := @replyAt_chunk answer true chunk i key hkey 2 (.memoryUsage key) rfl
          simp only [hsize]

/-! ## All keys -/

/-- The keyspace does not change: every pipeline is answered command by command
in the same way. -/
def AnswersPipelines {σ : Type} (server : σ → (c : ReaderCommand) → σ × ReaderReply c)
    (answer : PipelineCommand → PipelineReply) : Prop :=
  ∀ s commands, (server s (.pipeline commands)).2 = .ok (some (commands.map answer))

section

variable {σ : Type} {server : σ → (c : ReaderCommand) → σ × ReaderReply c}
  {answer : PipelineCommand → PipelineReply}

/-- The loop over the chunks. One pipeline is sent for each chunk, and the
entries of the chunks follow each other as the keys do. -/
theorem describeChunks_exec (hserver : AnswersPipelines server answer) (includeSize : Bool)
    (chunkSize : PositiveInteger) (keys : List Text) (s : σ) :
    let ending := (describeChunks includeSize (commandsPerKey includeSize) chunkSize keys).exec
      server s
    ending.result = .ok (keys.map (describedEntry answer includeSize)) ∧
    ∀ command ∈ ending.sent, ∃ commands, command = .pipeline commands ∧
      commands.length ≤ chunkSize.value * commandsPerKey includeSize := by
  intro ending
  simp only [ending]
  clear ending
  fun_induction describeChunks includeSize (commandsPerKey includeSize) chunkSize keys
    generalizing s with
  | case1 => simp
  | case2 key rest chunk commands ih =>
      have hreply := hserver s commands
      have hchunk : readChunk includeSize (commandsPerKey includeSize)
          (some (commands.map answer)) chunk = chunk.map (describedEntry answer includeSize) :=
        readChunk_eq answer includeSize chunk
      obtain ⟨hresult, hsent⟩ := ih (server s (.pipeline commands)).1
      have hlength : commands.length ≤ chunkSize.value * commandsPerKey includeSize := by
        have := length_chunkCommands includeSize chunk
        simp only [chunkCommands] at this
        rw [show commands = (chunk.map (describeCommands includeSize)).flatten from rfl, this]
        exact Nat.mul_le_mul_right _ (List.length_take_le _ _)
      rw [Dialogue.exec_send, hreply]
      simp only [awaitReply, Dialogue.exec_bind_ok _ hresult, Dialogue.exec_done,
        Dialogue.Ending.after, hchunk, List.append_nil]
      refine ⟨?_, ?_⟩
      · rw [← List.map_append, List.take_append_drop]
      · intro command hcommand
        rcases List.mem_append.mp hcommand with h | h
        · exact ⟨commands, List.mem_singleton.mp h, hlength⟩
        · exact hsent command h

/-- The chunk size keeps a pipeline within the limit, or to one key. -/
theorem chunk_within_limit (limit perKey : Nat) :
    max 1 (limit / perKey) * perKey ≤ max limit perKey := by
  rcases Nat.le_total 1 (limit / perKey) with h | h
  · rw [Nat.max_eq_right h]
    exact (Nat.div_mul_le_self limit perKey).trans (Nat.le_max_left _ _)
  · rw [Nat.max_eq_left h, Nat.one_mul]
    exact Nat.le_max_right _ _

/-- Describing a page, for any options. -/
theorem describeAll_exec (hserver : AnswersPipelines server answer)
    (options : ResolvedAdminOptions) (keys : List Text) (includeSize : Bool) (s : σ) :
    let ending := (describeAll options keys includeSize).exec server s
    ending.result = .ok (keys.map (describedEntry answer includeSize)) ∧
    ∀ command ∈ ending.sent, ∃ commands, command = .pipeline commands ∧
      commands.length ≤ max options.commandBatchLimit.value (commandsPerKey includeSize) := by
  obtain ⟨hresult, hsent⟩ := describeChunks_exec hserver includeSize
    ⟨max 1 (options.commandBatchLimit.value / commandsPerKey includeSize), by omega⟩ keys s
  refine ⟨hresult, fun command hcommand => ?_⟩
  obtain ⟨commands, rfl, hlength⟩ := hsent command hcommand
  exact ⟨commands, rfl, hlength.trans (chunk_within_limit _ _)⟩

/-- The commands of a key are answered alike on their own and on a pipeline. -/
def AnswersAlone (server : σ → (c : ReaderCommand) → σ × ReaderReply c)
    (answer : PipelineCommand → PipelineReply) (key : Text) : Prop :=
  ∀ s, (∃ name, (server s (.type key)).2 = .ok name ∧ answer (.type key) = (none, .text name)) ∧
    ∃ reply, (server s (.ttl key)).2 = .ok reply ∧ answer (.ttl key) = (none, reply)

/-- `describeKey` reads what a listing reads. It sends `TYPE` and `TTL` of the
key alone, and reads the same replies with the same readers. -/
theorem describeKey_reads {options : ResolvedAdminOptions} {connection : ConnectionStatus}
    {scopeId key : Text} (halone : AnswersAlone server answer key) (s : σ) {detail : KeyDetail}
    (hdetail : ((describeKey options connection scopeId key).exec server s).result = .ok detail) :
    detail.type = readKeyType (slotReading (answer (.type key))) ∧
    detail.ttl = readKeyTtl (slotReading (answer (.ttl key))) := by
  unfold describeKey at hdetail
  cases hresolve : resolve options scopeId key with
  | error e => simp [hresolve, Dialogue.ofExcept, Dialogue.bind] at hdetail
  | ok scope =>
      cases hclient : cacheServiceGetClient connection with
      | error e => simp [hresolve, hclient, Dialogue.ofExcept, Dialogue.bind] at hdetail
      | ok client =>
          obtain ⟨⟨name, htype, hname⟩, -⟩ := halone s
          obtain ⟨-, reply, httl, hreply⟩ := halone (server s (.type key)).1
          simp only [hresolve, hclient, Dialogue.bind_eq, Dialogue.ofExcept, Dialogue.bind,
            Dialogue.exec_send, htype, httl, awaitReply, Dialogue.Ending.after_result] at hdetail
          obtain rfl := Except.ok.inj hdetail
          rw [hname, hreply]
          exact ⟨rfl, rfl⟩

end

/-- **Batching does not change the readings.**  On a keyspace that does not
change, describing a page ends with one entry per key in page order, each read
from the replies to that key's own commands; the batch limit plays no part, a
key described alone has the same entry and `describeKey` the same type and
remaining life, a command that errored leaves its own reading unknown, and no
pipeline holds more commands than the limit or one key's cost. -/
theorem describeAll_unbatched {σ : Type} (server : σ → (c : ReaderCommand) → σ × ReaderReply c)
    (answer : PipelineCommand → PipelineReply) (hserver : AnswersPipelines server answer)
    (options : ResolvedAdminOptions) (keys : List Text) (includeSize : Bool) (s : σ) :
    let ending := (describeAll options keys includeSize).exec server s
    ending.result = .ok (keys.map (describedEntry answer includeSize)) ∧
    (∀ (other : ResolvedAdminOptions) (s' : σ),
      ((describeAll other keys includeSize).exec server s').result = ending.result) ∧
    (∀ (key : Text) (other : ResolvedAdminOptions) (s' : σ),
      ((describeAll other [key] includeSize).exec server s').result =
        .ok [describedEntry answer includeSize key]) ∧
    (∀ (key : Text) (other : ResolvedAdminOptions) (connection : ConnectionStatus)
      (scopeId : Text) (s' : σ) (detail : KeyDetail), AnswersAlone server answer key →
      ((describeKey other connection scopeId key).exec server s').result = .ok detail →
      detail.type = (describedEntry answer includeSize key).type ∧
        detail.ttl = (describedEntry answer includeSize key).ttl) ∧
    (∀ key,
      ((answer (.type key)).1 ≠ none → (describedEntry answer includeSize key).type = .other) ∧
      ((answer (.ttl key)).1 ≠ none → (describedEntry answer includeSize key).ttl = .missing) ∧
      ((answer (.memoryUsage key)).1 ≠ none →
        (describedEntry answer includeSize key).sizeBytes = none)) ∧
    ∀ command ∈ ending.sent, ∃ commands, command = .pipeline commands ∧
      commands.length ≤ max options.commandBatchLimit.value (commandsPerKey includeSize) := by
  obtain ⟨hresult, hsent⟩ := describeAll_exec hserver options keys includeSize s
  refine ⟨hresult, fun other s' => ?_, fun key other s' => ?_, ?_,
    describedEntry_unknown answer includeSize, hsent⟩
  · rw [hresult]
    exact (describeAll_exec hserver other keys includeSize s').1
  · exact (describeAll_exec hserver other [key] includeSize s').1
  · intro key other connection scopeId s' detail halone hdetail
    exact describeKey_reads halone s' hdetail

/-- A server that answers each command on a pipeline on its own. -/
def pipelineServer (answer : PipelineCommand → PipelineReply) :
    Unit → (c : ReaderCommand) → Unit × ReaderReply c
  | _, .pipeline commands => ((), .ok (some (commands.map answer)))
  | s, c => downServer s c

/-- Strings, of which one is measured and one has no readable life. -/
def measuredAnswer : PipelineCommand → PipelineReply
  | .type _ => (none, .text "string".toList)
  | .ttl key =>
      if key = "app:b".toList then (some (.error "ERR internal".toList), .null)
      else (none, .number (.finite (-1)) "-1".toList)
  | .memoryUsage key =>
      if key = "app:a".toList then (none, .number 64 "64".toList)
      else (some (.error "ERR unknown command".toList), .null)

/-- Three keys of three commands each, with room for two keys on a pipeline. -/
theorem describeAll_unbatched_three :
    ((describeAll { adminOptions [appScope] with commandBatchLimit := ⟨7, by decide⟩ }
      ["app:a".toList, "app:b".toList, "app:c".toList] true).exec
        (pipelineServer measuredAnswer) ()).result =
      .ok [{ key := "app:a".toList, type := .string, ttl := .persistent, sizeBytes := some 64 },
        { key := "app:b".toList, type := .string, ttl := .missing, sizeBytes := none },
        { key := "app:c".toList, type := .string, ttl := .persistent, sizeBytes := none }] := by
  have h := (describeAll_unbatched (pipelineServer measuredAnswer) measuredAnswer (fun _ _ => rfl)
    { adminOptions [appScope] with commandBatchLimit := ⟨7, by decide⟩ }
    ["app:a".toList, "app:b".toList, "app:c".toList] true ()).1
  rw [h]
  decide

end CacheAdminService

end NestCache
