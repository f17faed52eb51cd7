import NestCache.InfoText
import NestCache.NumeralsAndDates

/-!
# Reading `INFO`

`readRedisStats` reads some twenty fields of the parsed text, each by one of five
readers.  A field is reported, never defaulted, except for the role.

* `readRedisStats_returns_iff` — the reading returns exactly when the last save
  time is the time of a date;
* `blank_reads_as_absent_iff` — a blank value reads as a deleted line, except for
  the three texts and the append-only flag.
-/

namespace NestCache

/-! ## The reading -/

/-- The configured memory ceiling. -/
inductive MaxMemory
  | limited (bytes : Rat)
  | unbounded
  | unreported
  deriving DecidableEq

/-- The outcome of the most recent background save, when one is reported. -/
inductive BgsaveOutcome
  | ok
  | err
  deriving DecidableEq

inductive ReplicationRole
  | master
  | replica
  deriving DecidableEq

structure ServerStats where
  redisVersion : Option Text
  mode : Option Text
  uptimeSeconds : Option Rat
  deriving DecidableEq

structure ClientStats where
  connected : Option Rat
  blocked : Option Rat
  deriving DecidableEq

structure MemoryStats where
  usedBytes : Option Rat
  peakBytes : Option Rat
  max : MaxMemory
  fragmentationRatio : Option Rat
  evictionPolicy : Option Text
  deriving DecidableEq

structure CommandStats where
  keyspaceHits : Option Rat
  keyspaceMisses : Option Rat
  expiredKeys : Option Rat
  evictedKeys : Option Rat
  instantaneousOpsPerSec : Option Rat
  totalCommandsProcessed : Option Rat
  totalConnectionsReceived : Option Rat
  rejectedConnections : Option Rat
  deriving DecidableEq

structure PersistenceStats where
  rdbLastSaveAt : Option Text
  rdbChangesSinceLastSave : Option Rat
  rdbLastBgsaveStatus : Option BgsaveOutcome
  aofEnabled : Option Bool
  deriving DecidableEq

structure ReplicationStats where
  role : ReplicationRole
  connectedReplicas : Option Rat
  deriving DecidableEq

/-- A parsed reading of Redis `INFO`. -/
structure RedisStats where
  readAt : Text
  server : ServerStats
  clients : ClientStats
  memory : MemoryStats
  stats : CommandStats
  persistence : PersistenceStats
  replication : ReplicationStats
  deriving DecidableEq

/-- Turns a Unix timestamp into the milliseconds of an instant. -/
def MS_PER_SECOND : Rat := 1000

def UNBOUNDED_MAXMEMORY : Rat := 0
def BGSAVE_OK : Text := "ok".toList
def BGSAVE_ERROR : Text := "err".toList
def INFO_TRUE : Text := "1".toList
def WIRE_REPLICA_ROLE : Text := "slave".toList

namespace InfoFields

variable (fields : InfoFields)

/-- Reads a field as text. -/
def text (name : String) : Option Text := fields.lookup name.toList

/-- The finite number that a value spells. -/
def finiteNumber (raw : Text) : Option Rat :=
  match readNumeral raw.trim with
  | none => none
  | some numeral => match JsNumber.ofRat numeral.value with
    | .finite q => some q
    | .nan | .negInf | .posInf => none

/-- Reads a field as a finite number. -/
def num (name : String) : Option Rat := (fields.lookup name.toList).bind finiteNumber

/-- Reads the configured memory ceiling as its three distinct states. -/
def maxMemory : MaxMemory :=
  match num fields "maxmemory" with
  | none => .unreported
  | some value => if value = UNBOUNDED_MAXMEMORY then .unbounded else .limited value

/-- The number of milliseconds that a number of seconds gives. -/
def saveTimeMs (seconds : Rat) : JsNumber := .ofRat (seconds * MS_PER_SECOND)

/-- Reads the instant of the last successful background save. -/
def lastSaveAt : Except Thrown (Option Text) :=
  match num fields "rdb_last_save_time" with
  | none => .ok none
  | some seconds => (toISOString (newDate (saveTimeMs seconds))).map some

/-- Reads the outcome of the last background save. -/
def bgsaveStatus : Option BgsaveOutcome :=
  let raw := text fields "rdb_last_bgsave_status"
  if raw = some BGSAVE_OK then some .ok
  else if raw = some BGSAVE_ERROR then some .err
  else none

/-- Reads whether append-only persistence is enabled. -/
def aofEnabled : Option Bool := (text fields "aof_enabled").map fun raw => decide (raw = INFO_TRUE)

/-- Reads this server's replication role. -/
def role : ReplicationRole :=
  if text fields "role" = some WIRE_REPLICA_ROLE then .replica else .master

end InfoFields

open InfoFields

/-- Turns `INFO` text into a typed reading. -/
def readRedisStats (infoText : Text) (readAt : JsDate) : Except Thrown RedisStats := do
  let fields := parseInfoFields infoText
  let readAt ← toISOString readAt
  let rdbLastSaveAt ← lastSaveAt fields
  return {
    readAt
    server := {
      redisVersion := text fields "redis_version"
      mode := text fields "redis_mode"
      uptimeSeconds := num fields "uptime_in_seconds" }
    clients := {
      connected := num fields "connected_clients"
      blocked := num fields "blocked_clients" }
    memory := {
      usedBytes := num fields "used_memory"
      peakBytes := num fields "used_memory_peak"
      max := maxMemory fields
      fragmentationRatio := num fields "mem_fragmentation_ratio"
      evictionPolicy := text fields "maxmemory_policy" }
    stats := {
      keyspaceHits := num fields "keyspace_hits"
      keyspaceMisses := num fields "keyspace_misses"
      expiredKeys := num fields "expired_keys"
      evictedKeys := num fields "evicted_keys"
      instantaneousOpsPerSec := num fields "instantaneous_ops_per_sec"
      totalCommandsProcessed := num fields "total_commands_processed"
      totalConnectionsReceived := num fields "total_connections_received"
      rejectedConnections := num fields "rejected_connections" }
    persistence := {
      rdbLastSaveAt
      rdbChangesSinceLastSave := num fields "rdb_changes_since_last_save"
      rdbLastBgsaveStatus := bgsaveStatus fields
      aofEnabled := aofEnabled fields }
    replication := {
      role := role fields
      connectedReplicas := num fields "connected_slaves" } }

/-! ## When the reading returns -/

/-- The last save time, where the server publishes one, is the time of a
date. -/
def SaveTimeInRange (fields : InfoFields) : Prop :=
  ∀ seconds, num fields "rdb_last_save_time" = some seconds →
    (saveTimeMs seconds).inDateRange = true

/-- What `rdbLastSaveAt` reports: the published instant, or nothing when none
is published. -/
def ReportsSaveTime (fields : InfoFields) (rdbLastSaveAt : Option Text) : Prop :=
  match num fields "rdb_last_save_time" with
  | none => rdbLastSaveAt = none
  | some seconds => ∃ t, newDate (saveTimeMs seconds) = some t ∧ rdbLastSaveAt = some (isoText t)

/-- The save time that is returned is the one that `ReportsSaveTime`
describes: out of the range of dates, none is returned. -/
theorem lastSaveAt_eq_ok (fields : InfoFields) (saved : Option Text) :
    lastSaveAt fields = .ok saved ↔ ReportsSaveTime fields saved := by
  unfold lastSaveAt ReportsSaveTime
  cases num fields "rdb_last_save_time" with
  | none => simp [eq_comm]
  | some seconds =>
      cases hdate : newDate (saveTimeMs seconds) <;> simp [hdate, toISOString, Except.map, eq_comm]

/-- `rdbLastSaveAt` is computed without an exception exactly if the save time
is in the range of dates. -/
theorem exists_lastSaveAt_iff (fields : InfoFields) :
    (∃ saved, lastSaveAt fields = .ok saved) ↔ SaveTimeInRange fields := by
  simp only [lastSaveAt_eq_ok]
  unfold ReportsSaveTime SaveTimeInRange
  cases num fields "rdb_last_save_time" with
  | none => simp
  | some seconds =>
      simp only [Option.some.injEq, forall_eq', ← isSome_newDate]
      cases newDate (saveTimeMs seconds) <;> simp

/-- Only the save time can fail; the rest of the reading is assembled
around it. -/
theorem readRedisStats_assembled (infoText : Text) (readAt : TimeValue) :
    ∃ assemble : Option Text → RedisStats,
      (∀ saved, (assemble saved).persistence.rdbLastSaveAt = saved) ∧
      readRedisStats infoText (some readAt) =
        (lastSaveAt (parseInfoFields infoText)).bind fun saved => .ok (assemble saved) :=
  ⟨_, fun _ => rfl, rfl⟩

/-- **When the reading returns.**  For every text and every valid instant, the
reading returns, with the published instant as ISO text or with none, exactly
when the last save time is the time of a date. -/
theorem readRedisStats_returns_iff (infoText : Text) (readAt : TimeValue) :
    (∃ stats, readRedisStats infoText (some readAt) = .ok stats ∧
      ReportsSaveTime (parseInfoFields infoText) stats.persistence.rdbLastSaveAt) ↔
    SaveTimeInRange (parseInfoFields infoText) := by
  obtain ⟨assemble, hassemble, hread⟩ := readRedisStats_assembled infoText readAt
  rw [← exists_lastSaveAt_iff, hread]
  constructor
  · rintro ⟨stats, hstats, -⟩
    obtain ⟨saved, hsaved, -⟩ := ok_of_bind_ok hstats
    exact ⟨saved, hsaved⟩
  · rintro ⟨saved, hsaved⟩
    refine ⟨assemble saved, by rw [hsaved]; rfl, ?_⟩
    rw [hassemble]
    exact (lastSaveAt_eq_ok _ _).mp hsaved

/-- A save time in whole seconds is one of a date up to the year 275760. -/
theorem saveTime_integer {seconds : Int} (h : (seconds * 1000).natAbs < 2 ^ 53) :
    (saveTimeMs seconds).inDateRange = true ↔ seconds.natAbs ≤ 8640000000000 := by
  have hms : saveTimeMs seconds = .finite ((seconds * 1000 : Int) : Rat) := by
    have hcast : (seconds : Rat) * MS_PER_SECOND = ((seconds * 1000 : Int) : Rat) := by
      rw [Int.cast_mul]
      rfl
    rw [saveTimeMs, hcast, JsNumber.ofRat, Binary64.round_intCast h]
  rw [hms, JsNumber.inDateRange, Rat.num_intCast, Rat.den_intCast, MAX_TIME_MS, decide_eq_true_iff]
  omega

/-- **A save time beyond the calendar.** One second after the last instant of
a date, the reading throws the `RangeError` of `toISOString`. -/
theorem readRedisStats_throws : ¬ ∀ (infoText : Text) (readAt : TimeValue),
    ∃ stats, readRedisStats infoText (some readAt) = .ok stats := by
  intro h
  obtain ⟨stats, hstats⟩ := h "rdb_last_save_time:8640000000001".toList ⟨0, by decide⟩
  obtain ⟨assemble, -, hread⟩ := readRedisStats_assembled
    "rdb_last_save_time:8640000000001".toList ⟨0, by decide⟩
  obtain ⟨saved, hsaved, -⟩ := ok_of_bind_ok (hread ▸ hstats)
  have hrange := (exists_lastSaveAt_iff _).mp ⟨saved, hsaved⟩
  have hseconds : num (parseInfoFields "rdb_last_save_time:8640000000001".toList)
      "rdb_last_save_time" = some ((8640000000001 : Int) : Rat) := by
    decide +kernel
  exact absurd ((saveTime_integer (by decide)).mp (hrange _ hseconds)) (by decide)

/-! ## Blank values -/

/-- The fields that the reading uses. -/
def INFO_FIELDS : List String :=
  ["redis_version", "redis_mode", "uptime_in_seconds", "connected_clients", "blocked_clients",
    "used_memory", "used_memory_peak", "maxmemory", "mem_fragmentation_ratio", "maxmemory_policy",
    "keyspace_hits", "keyspace_misses", "expired_keys", "evicted_keys",
    "instantaneous_ops_per_sec", "total_commands_processed", "total_connections_received",
    "rejected_connections", "rdb_last_save_time", "rdb_changes_since_last_save",
    "rdb_last_bgsave_status", "aof_enabled", "role", "connected_slaves"]

/-- The fields whose blank value is reported as if the server had set it. -/
def KEPT_WHEN_BLANK : List String := ["redis_version", "redis_mode", "maxmemory_policy", "aof_enabled"]

/-- The name of the field on a line. -/
def fieldOf (line : Text) : Option Text := (readLine line).map Prod.fst

/-- The text without the lines of a field. -/
def deleteField (name text : Text) : Text :=
  ['\n'].intercalate ((text.splitOn '\n').filter fun line => fieldOf line ≠ some name)

/-- A line of a field whose value is empty or white space. -/
def IsBlankField (name line : Text) : Prop :=
  ∃ lead padding, IsBlank lead ∧ IsBlank padding ∧ '\n' ∉ lead ∧ '\n' ∉ padding ∧
    line = lead ++ (name ++ FIELD_SEPARATOR :: []) ++ padding

/-- The second text is the first with a blank value on every line of a
field. -/
def BlanksField (name text text' : Text) : Prop :=
  ∃ lines', List.Forall₂ (fun line line' =>
      if fieldOf line = some name then IsBlankField name line' else line' = line)
    (text.splitOn '\n') lines' ∧ text' = ['\n'].intercalate lines'

/-- Every field that the reading uses has a name that the parser reads back. -/
theorem isFieldName_infoFields : ∀ name ∈ INFO_FIELDS, IsFieldName name.toList := by
  have hnames : ∀ name ∈ INFO_FIELDS, name.toList ≠ [] ∧ FIELD_SEPARATOR ∉ name.toList ∧
      name.toList.head? ≠ some SECTION_PREFIX ∧
      (name.toList.head?.all fun c => !isJsWhitespace c) = true := by
    decide +kernel
  intro name hname
  obtain ⟨hne, hsep, hheader, hfirst⟩ := hnames name hname
  exact ⟨hne, hsep, hheader, fun c hc => by simpa [hc] using hfirst⟩

/-- No name of a field that is read has a line break in it. -/
theorem no_break_infoFields : ∀ name ∈ INFO_FIELDS, '\n' ∉ name.toList := by decide +kernel

/-! ### Two texts and their fields -/

/-- The fields of the lines that are left. -/
theorem infoEntries_deleteField (name text : Text) :
    infoEntries (deleteField name text) = (infoEntries text).filter fun entry => entry.1 ≠ name := by
  rw [deleteField, infoEntries_join fun line hline =>
    no_break_of_mem_lines (List.mem_filter.mp hline).1, infoEntries]
  induction text.splitOn '\n' with
  | nil => rfl
  | cons line rest ih =>
      unfold lineEntries at ih ⊢
      cases hline : readLine line with
      | none => simpa [hline, fieldOf] using ih
      | some entry => by_cases hentry : entry.1 = name <;> simpa [hline, fieldOf, hentry] using ih

/-- A blank line of a field is read as the field without a value. -/
theorem IsBlankField.readLine_eq {name line : Text} (hname : IsFieldName name)
    (h : IsBlankField name line) : readLine line = some (name, []) := by
  obtain ⟨lead, padding, hlead, hpadding, -, -, rfl⟩ := h
  exact readLine_field hlead hname nofun hpadding

/-- A line that blanks a field is one line. -/
theorem IsBlankField.no_break {name line : Text} (hbreak : '\n' ∉ name)
    (h : IsBlankField name line) : '\n' ∉ line := by
  obtain ⟨lead, padding, -, -, hlead, hpadding, rfl⟩ := h
  simp [hlead, hpadding, hbreak, FIELD_SEPARATOR]

/-- Line by line, blanking a field keeps the lines apart and empties its
entries. -/
theorem lineEntries_blanked {name : Text} (hname : IsFieldName name) (hbreak : '\n' ∉ name)
    {lines lines' : List Text} (hlines : List.Forall₂ (fun line line' =>
      if fieldOf line = some name then IsBlankField name line' else line' = line) lines lines')
    (hno : ∀ line ∈ lines, '\n' ∉ line) :
    (∀ line' ∈ lines', '\n' ∉ line') ∧ lineEntries lines' =
      (lineEntries lines).map fun entry => if entry.1 = name then (name, []) else entry := by
  induction hlines with
  | nil => exact ⟨by simp, rfl⟩
  | @cons line line' rest rest' hpair _ ih =>
      obtain ⟨hrestBreaks, hrest⟩ := ih fun other hother => hno other (List.mem_cons_of_mem _ hother)
      unfold lineEntries at hrest ⊢
      by_cases hfield : fieldOf line = some name
      · rw [if_pos hfield] at hpair
        obtain ⟨entry, hentry, hentryName⟩ := Option.map_eq_some_iff.mp hfield
        refine ⟨List.forall_mem_cons.mpr ⟨hpair.no_break hbreak, hrestBreaks⟩, ?_⟩
        simp only [List.filterMap_cons, hpair.readLine_eq hname, hentry, List.map_cons, hentryName,
          if_true, hrest]
      · rw [if_neg hfield] at hpair
        subst hpair
        refine ⟨List.forall_mem_cons.mpr ⟨hno _ List.mem_cons_self, hrestBreaks⟩, ?_⟩
        cases hline : readLine line' with
        | none => simpa [hline] using hrest
        | some entry =>
            have hne : entry.1 ≠ name := by simpa [fieldOf, hline] using hfield
            simp only [List.filterMap_cons, hline, List.map_cons, if_neg hne, hrest]

/-- The fields of the lines, with nothing on those of the field. -/
theorem infoEntries_blanked {name text text' : Text} (hname : IsFieldName name)
    (hbreak : '\n' ∉ name) (h : BlanksField name text text') :
    infoEntries text' =
      (infoEntries text).map fun entry => if entry.1 = name then (name, []) else entry := by
  obtain ⟨lines', hlines, rfl⟩ := h
  obtain ⟨hbreaks, hentries⟩ := lineEntries_blanked hname hbreak hlines
    fun line hline => no_break_of_mem_lines hline
  rw [infoEntries_join hbreaks, hentries, infoEntries]

/-- A line of the text has the field. -/
def Publishes (name text : Text) : Prop := ∃ line ∈ text.splitOn '\n', fieldOf line = some name

/-- A field is published exactly if it is among the parsed entries of
the text. -/
theorem publishes_iff {name text : Text} :
    Publishes name text ↔ name ∈ (infoEntries text).map Prod.fst := by
  simp only [Publishes, fieldOf, infoEntries, lineEntries, Option.map_eq_some_iff, List.mem_map,
    List.mem_filterMap]
  constructor
  · rintro ⟨line, hline, entry, hentry, rfl⟩
    exact ⟨entry, ⟨line, hline, hentry⟩, rfl⟩
  · rintro ⟨entry, ⟨line, hline, hentry⟩, rfl⟩
    exact ⟨line, hline, entry, hentry, rfl⟩

/-- Every field can be blanked. -/
theorem exists_blanksField (name text : Text) : ∃ text', BlanksField name text text' := by
  have hblank : IsBlankField name (name ++ [FIELD_SEPARATOR]) :=
    ⟨[], [], by simp [IsBlank], by simp [IsBlank], by simp, by simp, by simp⟩
  refine ⟨_, (text.splitOn '\n').map fun line =>
    if fieldOf line = some name then name ++ [FIELD_SEPARATOR] else line, ?_, rfl⟩
  refine List.forall₂_map_right_iff.mpr (List.forall₂_same.mpr fun line _ => ?_)
  by_cases hfield : fieldOf line = some name
  · simpa only [if_pos hfield] using hblank
  · simp only [if_neg hfield]

/-- What is left after the lines of a field are deleted. -/
theorem lookup_deleteField (name text other : Text) :
    (parseInfoFields (deleteField name text)).lookup other =
      if other = name then none else (parseInfoFields text).lookup other := by
  rw [parseInfoFields_lookup, parseInfoFields_lookup, infoEntries_deleteField]
  by_cases h : other = name
  · rw [if_pos h, KeyedBatch.writeAll_of_notMem]
    simp [h]
  · rw [if_neg h, KeyedBatch.writeAll_filter_ne h]

section Lookups

variable {name text text' : Text} (hname : IsFieldName name) (hbreak : '\n' ∉ name)
  (h : BlanksField name text text')

include hname hbreak h

/-- Blanking a field leaves the other ones. -/
theorem BlanksField.lookup_other {other : Text} (hother : other ≠ name) :
    (parseInfoFields text').lookup other = (parseInfoFields text).lookup other := by
  rw [parseInfoFields_lookup, parseInfoFields_lookup, infoEntries_blanked hname hbreak h,
    ← KeyedBatch.writeAll_filter_ne hother,
    ← KeyedBatch.writeAll_filter_ne hother (infoEntries text)]
  congr 1
  -- away from the field the entries are the same
  induction infoEntries text with
  | nil => rfl
  | cons entry rest ih => by_cases hentry : entry.1 = name <;> simpa [hentry] using ih

/-- A field that was there is blank. -/
theorem BlanksField.lookup_published (hthere : Publishes name text) :
    (parseInfoFields text').lookup name = some [] := by
  rw [publishes_iff] at hthere
  rw [parseInfoFields_lookup, infoEntries_blanked hname hbreak h]
  refine KeyedBatch.writeAll_of_const ?_ ?_ _
  · obtain ⟨entry, hentry, rfl⟩ := List.mem_map.mp hthere
    exact List.mem_map.mpr ⟨(entry.1, []), List.mem_map.mpr ⟨entry, hentry, if_pos rfl⟩, rfl⟩
  · intro entry hentry hkey
    obtain ⟨original, -, rfl⟩ := List.mem_map.mp hentry
    by_cases hfield : original.1 = name
    · rw [if_pos hfield]
    · rw [if_neg hfield] at hkey
      exact absurd hkey hfield

/-- A field that was not there stays away. -/
theorem BlanksField.lookup_unpublished (hthere : ¬ Publishes name text) :
    (parseInfoFields text').lookup name = none := by
  rw [publishes_iff] at hthere
  rw [parseInfoFields_lookup, infoEntries_blanked hname hbreak h]
  refine KeyedBatch.writeAll_of_notMem (fun hkey => hthere ?_) _
  obtain ⟨entry, hentry, hentryName⟩ := List.mem_map.mp hkey
  obtain ⟨original, horiginal, rfl⟩ := List.mem_map.mp hentry
  refine List.mem_map.mpr ⟨original, horiginal, ?_⟩
  by_cases hfield : original.1 = name
  · exact hfield
  · rwa [if_neg hfield] at hentryName

end Lookups

/-! ### Two readings -/

/-- Two parsed texts that every reader takes for one. -/
structure ReadAlike (fields fields' : InfoFields) : Prop where
  num : num fields = num fields'
  redisVersion : text fields "redis_version" = text fields' "redis_version"
  mode : text fields "redis_mode" = text fields' "redis_mode"
  evictionPolicy : text fields "maxmemory_policy" = text fields' "maxmemory_policy"
  bgsaveStatus : bgsaveStatus fields = bgsaveStatus fields'
  aofEnabled : aofEnabled fields = aofEnabled fields'
  role : role fields = role fields'

/-- **What `readRedisStats` returns** depends on the parsed fields only as its
readers read them. -/
theorem readRedisStats_congr {infoText infoText' : Text}
    (h : ReadAlike (parseInfoFields infoText) (parseInfoFields infoText')) (readAt : JsDate) :
    readRedisStats infoText readAt = readRedisStats infoText' readAt := by
  simp only [readRedisStats, maxMemory, lastSaveAt, h.num, h.redisVersion, h.mode,
    h.evictionPolicy, h.bgsaveStatus, h.aofEnabled, h.role]

/-- A field is blank in one parsed text and absent from the other. -/
structure BlankedIn (name : Text) (fields fields' : InfoFields) : Prop where
  blank : fields.lookup name = some []
  absent : fields'.lookup name = none
  others : ∀ other ≠ name, fields.lookup other = fields'.lookup other

namespace BlankedIn

variable {name : Text} {fields fields' : InfoFields}

/-- No number is spelled by a blank. -/
theorem num_eq (h : BlankedIn name fields fields') : num fields = num fields' := by
  funext other
  by_cases hother : other.toList = name
  · subst hother
    rw [num, num, h.blank, h.absent]
    rfl
  · rw [num, num, h.others _ hother]

/-- A text is the same when it is not the blank one. -/
theorem text_eq (h : BlankedIn name fields fields') {other : String} (hother : other.toList ≠ name) :
    text fields other = text fields' other :=
  h.others _ hother

/-- A comparison with a nonempty constant does not see the blank. -/
theorem text_eq_some_iff (h : BlankedIn name fields fields') (other : String) {value : Text}
    (hvalue : value ≠ []) : text fields other = some value ↔ text fields' other = some value := by
  by_cases hother : other.toList = name
  · subst hother
    rw [text, text, h.blank, h.absent]
    simpa using fun heq : [] = value => hvalue heq.symm
  · rw [h.text_eq hother]

/-- Outside of the fields that are kept, a blank field is read as absent. The
readers trim or parse the value, and a blank one is none to them. -/
theorem readAlike (h : BlankedIn name fields fields')
    (hname : ∀ kept ∈ KEPT_WHEN_BLANK, kept.toList ≠ name) : ReadAlike fields fields' where
  num := h.num_eq
  redisVersion := h.text_eq (hname _ (by decide))
  mode := h.text_eq (hname _ (by decide))
  evictionPolicy := h.text_eq (hname _ (by decide))
  bgsaveStatus := by
    have hok : BGSAVE_OK ≠ [] := by decide
    have herror : BGSAVE_ERROR ≠ [] := by decide
    simp only [bgsaveStatus, h.text_eq_some_iff _ hok, h.text_eq_some_iff _ herror]
  aofEnabled := by rw [aofEnabled, aofEnabled, h.text_eq (hname _ (by decide))]
  role := by
    have hrole : WIRE_REPLICA_ROLE ≠ [] := by decide
    simp only [role, h.text_eq_some_iff _ hrole]

end BlankedIn

/-- Parsed texts with the same fields are read alike. -/
theorem readAlike_of_lookup {fields fields' : InfoFields}
    (h : ∀ name, fields.lookup name = fields'.lookup name) : ReadAlike fields fields' := by
  have htext : text fields = text fields' := funext fun name => h name.toList
  have hnum : num fields = num fields' := funext fun name => by rw [num, num, h]
  constructor <;> simp only [hnum, bgsaveStatus, aofEnabled, role, htext]

/-- What a reading that returns says of the fields that are kept. -/
theorem readRedisStats_kept {infoText : Text} {readAt : JsDate} {stats : RedisStats}
    (h : readRedisStats infoText readAt = .ok stats) :
    stats.server.redisVersion = text (parseInfoFields infoText) "redis_version" ∧
    stats.server.mode = text (parseInfoFields infoText) "redis_mode" ∧
    stats.memory.evictionPolicy = text (parseInfoFields infoText) "maxmemory_policy" ∧
    stats.persistence.aofEnabled = aofEnabled (parseInfoFields infoText) := by
  obtain ⟨stamp, -, h⟩ := ok_of_bind_ok h
  obtain ⟨saved, -, h⟩ := ok_of_bind_ok h
  cases h
  exact ⟨rfl, rfl, rfl, rfl⟩

/-- A kept field that is blank is reported, so the readings differ. Blank it is
the empty text, or false for the flag of the append-only file; absent it is
null. -/
theorem BlankedIn.readings_differ {name : String} {infoText infoText' : Text}
    (h : BlankedIn name.toList (parseInfoFields infoText) (parseInfoFields infoText'))
    (hname : name ∈ KEPT_WHEN_BLANK) {readAt : JsDate} {stats : RedisStats}
    (hread : readRedisStats infoText readAt = .ok stats) :
    readRedisStats infoText readAt ≠ readRedisStats infoText' readAt := by
  intro hsame
  have hblank : text (parseInfoFields infoText) name = some [] := h.blank
  have habsent : text (parseInfoFields infoText') name = none := h.absent
  obtain ⟨hversion, hmode, hpolicy, haof⟩ := readRedisStats_kept hread
  obtain ⟨hversion', hmode', hpolicy', haof'⟩ := readRedisStats_kept (hsame ▸ hread)
  simp only [KEPT_WHEN_BLANK, List.mem_cons, List.not_mem_nil, or_false] at hname
  rcases hname with rfl | rfl | rfl | rfl
  · simp [hversion, hblank, habsent] at hversion'
  · simp [hmode, hblank, habsent] at hmode'
  · simp [hpolicy, hblank, habsent] at hpolicy'
  · simp [haof, aofEnabled, hblank, habsent] at haof'

/-- A save time that is out of range fails both readings alike. -/
theorem BlankedIn.readings_fail {name infoText infoText' : Text}
    (h : BlankedIn name (parseInfoFields infoText) (parseInfoFields infoText'))
    (hrange : ¬ SaveTimeInRange (parseInfoFields infoText)) (readAt : TimeValue) :
    readRedisStats infoText (some readAt) = readRedisStats infoText' (some readAt) := by
  have hsave : lastSaveAt (parseInfoFields infoText) = lastSaveAt (parseInfoFields infoText') := by
    rw [lastSaveAt, lastSaveAt, h.num_eq]
  cases herror : lastSaveAt (parseInfoFields infoText) with
  | ok saved => exact absurd ((exists_lastSaveAt_iff _).mp ⟨saved, herror⟩) hrange
  | error e =>
      obtain ⟨_, -, hread⟩ := readRedisStats_assembled infoText readAt
      obtain ⟨_, -, hread'⟩ := readRedisStats_assembled infoText' readAt
      rw [hread, hread', ← hsave, herror]
      rfl

/-- Whether the readings of a blanked and a deleted field agree, once the field
was there. -/
theorem BlankedIn.same_reading_iff {name : String} {infoText infoText' : Text}
    (h : BlankedIn name.toList (parseInfoFields infoText) (parseInfoFields infoText'))
    (readAt : TimeValue) :
    readRedisStats infoText (some readAt) = readRedisStats infoText' (some readAt) ↔
      name ∉ KEPT_WHEN_BLANK ∨ ¬ SaveTimeInRange (parseInfoFields infoText) := by
  constructor
  · intro hsame
    by_contra hcontra
    rw [not_or, not_not, not_not] at hcontra
    obtain ⟨hkept, hrange⟩ := hcontra
    obtain ⟨saved, hsaved⟩ := (exists_lastSaveAt_iff _).mpr hrange
    obtain ⟨assemble, -, hread⟩ := readRedisStats_assembled infoText readAt
    rw [hsaved] at hread
    exact h.readings_differ hkept hread hsame
  · rintro (hkept | hrange)
    · refine readRedisStats_congr (h.readAlike fun kept hmem heq => hkept ?_) _
      rwa [← String.toList_injective heq]
    · exact h.readings_fail hrange readAt

section Blanked

variable {name : String} {infoText blanked : Text} (hname : name ∈ INFO_FIELDS)
  (h : BlanksField name.toList infoText blanked)

include hname h

/-- Where a line has the field, one text has it blank and the other not
at all. -/
theorem BlanksField.blankedIn (hthere : Publishes name.toList infoText) :
    BlankedIn name.toList (parseInfoFields blanked)
      (parseInfoFields (deleteField name.toList infoText)) where
  blank := h.lookup_published (isFieldName_infoFields name hname) (no_break_infoFields name hname)
    hthere
  absent := by rw [lookup_deleteField, if_pos rfl]
  others other hother := by
    rw [h.lookup_other (isFieldName_infoFields name hname) (no_break_infoFields name hname) hother,
      lookup_deleteField, if_neg hother]

/-- Where no line has the field, both texts are the given one. -/
theorem BlanksField.readAlike (hthere : ¬ Publishes name.toList infoText) :
    ReadAlike (parseInfoFields blanked) (parseInfoFields (deleteField name.toList infoText)) := by
  refine readAlike_of_lookup fun other => ?_
  rw [lookup_deleteField]
  split
  · subst other
    exact h.lookup_unpublished (isFieldName_infoFields name hname) (no_break_infoFields name hname)
      hthere
  · rename_i hother
    exact h.lookup_other (isFieldName_infoFields name hname) (no_break_infoFields name hname) hother

/-- Blanking another field leaves the save time. -/
theorem BlanksField.saveTimeInRange (hkept : name ∈ KEPT_WHEN_BLANK) :
    SaveTimeInRange (parseInfoFields blanked) ↔ SaveTimeInRange (parseInfoFields infoText) := by
  have hother : "rdb_last_save_time".toList ≠ name.toList := by
    intro heq
    rw [← String.toList_injective heq] at hkept
    exact absurd hkept (by decide)
  rw [SaveTimeInRange, SaveTimeInRange, num, num,
    h.lookup_other (isFieldName_infoFields name hname) (no_break_infoFields name hname) hother]

end Blanked

/-- **Blank and absent.** For every text and every field that the reading
uses, blanking the lines of the field reads the same as deleting them exactly
when the field is none of the four that are kept, no line has it, or the save
time fails both readings. -/
theorem blank_reads_as_absent_iff {name : String} (hname : name ∈ INFO_FIELDS)
    (infoText : Text) (readAt : TimeValue) :
    (∀ blanked, BlanksField name.toList infoText blanked →
      readRedisStats blanked (some readAt) =
        readRedisStats (deleteField name.toList infoText) (some readAt)) ↔
    name ∉ KEPT_WHEN_BLANK ∨ ¬ Publishes name.toList infoText ∨
      ¬ SaveTimeInRange (parseInfoFields infoText) := by
  by_cases hthere : Publishes name.toList infoText
  · have hsame := fun blanked (hblanks : BlanksField name.toList infoText blanked) =>
      (hblanks.blankedIn hname hthere).same_reading_iff readAt
    by_cases hkept : name ∈ KEPT_WHEN_BLANK
    · -- every blanking of the field decides, and there is one
      simp only [hkept, hthere, not_true_eq_false, false_or] at hsame ⊢
      constructor
      · intro hall
        obtain ⟨blanked, hblanks⟩ := exists_blanksField name.toList infoText
        rw [← hblanks.saveTimeInRange hname hkept]
        exact (hsame blanked hblanks).mp (hall blanked hblanks)
      · intro hrange blanked hblanks
        refine (hsame blanked hblanks).mpr ?_
        rwa [hblanks.saveTimeInRange hname hkept]
    · refine iff_of_true (fun blanked hblanks => ?_) (Or.inl hkept)
      exact (hsame blanked hblanks).mpr (Or.inl hkept)
  · refine iff_of_true (fun blanked hblanks => ?_) (Or.inr (Or.inl hthere))
    exact readRedisStats_congr (hblanks.readAlike hname hthere) _

/-- A blank role is read as a missing one. -/
theorem blank_reads_as_absent_iff_role :
    readRedisStats "role:".toList (some ⟨0, by decide⟩) =
      readRedisStats (deleteField "role".toList "role:slave".toList) (some ⟨0, by decide⟩) := by
  refine (blank_reads_as_absent_iff (by decide) "role:slave".toList ⟨0, by decide⟩).mpr
    (.inl (by decide)) _ ⟨["role:".toList], List.Forall₂.cons ?_ .nil, rfl⟩
  rw [if_pos (by decide)]
  exact ⟨[], [], nofun, nofun, nofun, nofun, rfl⟩

/-- **A durability claim without evidence.** A blank `aof_enabled` is reported
as disabled, a missing one as unknown. -/
theorem blank_aof_reported : ¬ ∀ name ∈ INFO_FIELDS, ∀ (infoText blanked : Text) (readAt : TimeValue),
    BlanksField name.toList infoText blanked →
      readRedisStats blanked (some readAt) =
        readRedisStats (deleteField name.toList infoText) (some readAt) := by
  intro h
  have hblanks : BlanksField "aof_enabled".toList "aof_enabled:1".toList "aof_enabled:".toList := by
    refine ⟨["aof_enabled:".toList], List.Forall₂.cons ?_ .nil, rfl⟩
    rw [if_pos (by decide)]
    exact ⟨[], [], nofun, nofun, nofun, nofun, rfl⟩
  have hsame := h "aof_enabled" (by decide) _ _ ⟨0, by decide⟩ hblanks
  have hdiffers : readRedisStats "aof_enabled:".toList (some ⟨0, by decide⟩) ≠
      readRedisStats (deleteField "aof_enabled".toList "aof_enabled:1".toList)
        (some ⟨0, by decide⟩) := by
    decide +kernel
  exact hdiffers hsame

end NestCache
