import Mathlib.Data.List.AList
import Mathlib.Data.List.TakeWhile
import NestCache.JsValues
import NestCache.KeyedBatch

/-!
# `INFO` text

`INFO` is section headers, `field:value` lines and blank lines.  The parser
splits at line feeds, trims each line, drops headers and cuts at the first colon;
a name that comes twice keeps its last value.

* `parseInfoFields_lookup` — the parsed map, line by line;
* `parseInfoFields_render` — parsing inverts rendering.
-/

namespace NestCache

/-! ## The parser -/

/-- The fields of an `INFO` text. -/
abbrev InfoFields := AList fun _ : Text => Text

/-- Separates a field name from its value on an `INFO` line. -/
def FIELD_SEPARATOR : Char := ':'

/-- Marks a section header, which carries no field. -/
def SECTION_PREFIX : Char := '#'

/-- The field of a line, if it has one. -/
def readLine (rawLine : Text) : Option (Text × Text) :=
  let line := rawLine.trim
  if line.head? = some SECTION_PREFIX then none
  else match line.findIdx? (· == FIELD_SEPARATOR) with
    | none => none
    -- an empty field name, which no caller can ask for
    | some 0 => none
    | some cut => some (line.take cut, line.drop (cut + 1))

/-- Splits `INFO` text into its fields. -/
def parseInfoFields (text : Text) : InfoFields :=
  (text.splitOn '\n').foldl (fun fields rawLine => match readLine rawLine with
    | none => fields
    | some (name, value) => fields.insert name value) ∅

/-- The fields of a list of lines, in order. -/
def lineEntries (lines : List Text) : List (Text × Text) := lines.filterMap readLine

/-- The fields of a text, in order. -/
def infoEntries (text : Text) : List (Text × Text) := lineEntries (text.splitOn '\n')

/-- Filling a map line by line keeps the last value of every name. So the map
that the parser fills is the same as writing the entries of the lines from left
to right. -/
theorem lookup_foldl_lines (lines : List Text) (fields : InfoFields) :
    (lines.foldl (fun fields rawLine => match readLine rawLine with
      | none => fields
      | some (name, value) => fields.insert name value) fields).lookup =
    KeyedBatch.writeAll (lineEntries lines) fields.lookup := by
  induction lines generalizing fields with
  | nil => rfl
  | cons line rest ih =>
      rw [List.foldl_cons, ih, lineEntries, lineEntries]
      cases hline : readLine line with
      | none => rw [List.filterMap_cons_none hline]
      | some entry =>
          obtain ⟨name, value⟩ := entry
          rw [List.filterMap_cons_some hline, KeyedBatch.writeAll_cons]
          refine congrArg _ (funext fun other => ?_)
          by_cases h : other = name
          · subst h
            simp [AList.lookup_insert]
          · simp [AList.lookup_insert_ne h, Function.update_of_ne h]

/-- **The parsed map.**  Every name has the last value a line gives it. -/
theorem parseInfoFields_lookup (text name : Text) : (parseInfoFields text).lookup name =
    KeyedBatch.writeAll (infoEntries text) (fun _ => none) name :=
  congrFun (lookup_foldl_lines (text.splitOn '\n') ∅) name

/-- No line contains a line feed. The induction follows the splitting,
character by character. -/
theorem no_break_of_mem_lines {text line : Text} (h : line ∈ text.splitOn '\n') : '\n' ∉ line := by
  induction text generalizing line with
  | nil =>
      obtain rfl : line = [] := by simpa using h
      exact List.not_mem_nil
  | cons c text ih =>
      rw [List.splitOn_cons_eq_if_modifyHead] at h
      split at h
      · rcases List.mem_cons.mp h with rfl | h
        · exact List.not_mem_nil
        · exact ih h
      · rename_i hc
        obtain ⟨first, rest, hlines⟩ :=
          List.exists_cons_of_ne_nil (List.splitOn_ne_nil '\n' text)
        rw [hlines, List.modifyHead_cons] at h
        rcases List.mem_cons.mp h with rfl | h
        · have hfirst := @ih first (by simp [hlines])
          rw [List.mem_cons, not_or]
          refine ⟨?_, hfirst⟩
          rintro rfl
          exact hc (beq_self_eq_true _)
        · exact ih (by simp [hlines, h])

/-- The fields of joined lines. -/
theorem infoEntries_join {lines : List Text} (h : ∀ line ∈ lines, '\n' ∉ line) :
    infoEntries (['\n'].intercalate lines) = lineEntries lines := by
  cases lines with
  | nil => rfl
  | cons line rest => rw [infoEntries, List.splitOn_intercalate '\n' h (List.cons_ne_nil _ _)]

/-! ## Trimming -/

/-- Nothing but white space. -/
def IsBlank (t : Text) : Prop := ∀ c ∈ t, isJsWhitespace c = true

/-- A nonempty text that neither starts nor ends with white space. -/
structure IsTrimmed (t : Text) : Prop where
  nonempty : t ≠ []
  first : ∀ c, t.head? = some c → isJsWhitespace c = false
  last : ∀ c, t.getLast? = some c → isJsWhitespace c = false

/-- Nothing is dropped in front of a character that is no white space. -/
theorem dropWhile_of_head {t : Text} (h : ∀ c, t.head? = some c → isJsWhitespace c = false) :
    t.dropWhile isJsWhitespace = t := by
  cases t with
  | nil => rfl
  | cons c t => rw [List.dropWhile_cons_of_neg (by simp [h c rfl])]

/-- Trimming removes the white space around a trimmed text and no more. -/
theorem trim_blank_around {lead t trail : Text} (hlead : IsBlank lead) (ht : IsTrimmed t)
    (htrail : IsBlank trail) : Text.trim (lead ++ t ++ trail) = t := by
  have hreverse : IsBlank trail.reverse := fun c hc => htrail c (List.mem_reverse.mp hc)
  have hfirst : ∀ c, (t ++ trail).head? = some c → isJsWhitespace c = false := by
    obtain ⟨d, rest, rfl⟩ := List.exists_cons_of_ne_nil ht.nonempty
    exact fun c hc => ht.first c (by simpa using hc)
  rw [Text.trim, List.append_assoc, List.dropWhile_append_of_pos hlead, dropWhile_of_head hfirst,
    List.reverse_append, List.dropWhile_append_of_pos hreverse, dropWhile_of_head, List.reverse_reverse]
  intro c hc
  exact ht.last c (by rwa [List.head?_reverse] at hc)

/-- A text of white space is trimmed to nothing. -/
theorem trim_blank {t : Text} (h : IsBlank t) : t.trim = [] := by
  rw [Text.trim, List.dropWhile_eq_nil_iff.mpr h]
  rfl

/-- A last character that is no white space survives. -/
theorem dropWhile_append_singleton {c : Char} (hc : isJsWhitespace c = false) (t : Text) :
    ∃ rest, (t ++ [c]).dropWhile isJsWhitespace = rest ++ [c] := by
  induction t with
  | nil => exact ⟨[], by simp [hc]⟩
  | cons d t ih =>
      by_cases hd : isJsWhitespace d = true
      · rw [List.cons_append, List.dropWhile_cons_of_pos hd]
        exact ih
      · rw [List.cons_append, List.dropWhile_cons_of_neg hd]
        exact ⟨d :: t, rfl⟩

/-- Trimming keeps a first character that is no white space. -/
theorem head?_trim {c : Char} (hc : isJsWhitespace c = false) (t : Text) :
    (Text.trim (c :: t)).head? = some c := by
  obtain ⟨rest, hrest⟩ := dropWhile_append_singleton hc t.reverse
  rw [Text.trim, List.dropWhile_cons_of_neg (by simp [hc]), List.reverse_cons, hrest]
  simp

/-! ## Lines -/

/-- A name that the parser reads back: nonempty, without a colon, and neither a
header nor indented. -/
structure IsFieldName (name : Text) : Prop where
  nonempty : name ≠ []
  no_separator : FIELD_SEPARATOR ∉ name
  no_header : name.head? ≠ some SECTION_PREFIX
  first : ∀ c, name.head? = some c → isJsWhitespace c = false

/-- The end of a value is not white space. -/
def EndsTight (value : Text) : Prop := ∀ c, value.getLast? = some c → isJsWhitespace c = false

/-- The first colon of a field stands behind its name, since a name has none;
the value may have more. -/
theorem findIdx?_separator {name : Text} (h : FIELD_SEPARATOR ∉ name) (value : Text) :
    (name ++ FIELD_SEPARATOR :: value).findIdx? (· == FIELD_SEPARATOR) = some name.length := by
  induction name with
  | nil => simp [List.findIdx?_cons]
  | cons c name ih =>
      have hc : (c == FIELD_SEPARATOR) = false := by
        refine beq_eq_false_iff_ne.mpr ?_
        rintro rfl
        exact h List.mem_cons_self
      rw [List.cons_append, List.findIdx?_cons, hc, ih fun hmem => h (List.mem_cons_of_mem _ hmem)]
      rfl

/-- A field line, however it is padded, is its name and its value. The line is
trimmed, its first colon ends the name, and what is behind it is the value,
with colons of its own. -/
theorem readLine_field {lead name value trail : Text} (hlead : IsBlank lead)
    (hname : IsFieldName name) (hvalue : EndsTight value) (htrail : IsBlank trail) :
    readLine (lead ++ (name ++ FIELD_SEPARATOR :: value) ++ trail) = some (name, value) := by
  obtain ⟨c, rest, rfl⟩ := List.exists_cons_of_ne_nil hname.nonempty
  have htrimmed : IsTrimmed ((c :: rest) ++ FIELD_SEPARATOR :: value) := by
    refine ⟨by simp, fun d hd => hname.first d (by simpa using hd), fun d hd => ?_⟩
    rw [List.getLast?_append, List.getLast?_cons] at hd
    cases hlast : value.getLast? with
    | none =>
        rw [hlast] at hd
        obtain rfl : FIELD_SEPARATOR = d := by simpa using hd
        decide
    | some e =>
        rw [hlast] at hd
        obtain rfl : e = d := by simpa using hd
        exact hvalue e hlast
  have hheader : ((c :: rest) ++ FIELD_SEPARATOR :: value).head? ≠ some SECTION_PREFIX := by
    simpa using hname.no_header
  rw [readLine, trim_blank_around hlead htrimmed htrail, if_neg hheader,
    findIdx?_separator hname.no_separator]
  simp

/-- A line of white space has no field. -/
theorem readLine_blank {line : Text} (h : IsBlank line) : readLine line = none := by
  rw [readLine, trim_blank h]
  rfl

/-- The header of a section has no field, whatever its title. -/
theorem readLine_header (text : Text) : readLine (SECTION_PREFIX :: text) = none := by
  rw [readLine, if_pos (head?_trim (by decide) text)]

/-! ## Rendering -/

/-- A field name on one line. -/
structure FieldName where
  text : Text
  valid : IsFieldName text
  no_break : '\n' ∉ text

/-- A value on one line.  Colons, `#`, `=` and leading blanks are allowed. -/
structure FieldValue where
  text : Text
  tight : EndsTight text
  no_break : '\n' ∉ text

/-- A line of `INFO`: a section header with any text, a field or a blank
line. -/
inductive InfoLine
  | header (text : Text) (no_break : '\n' ∉ text)
  | field (name : FieldName) (value : FieldValue)
  | blank (padding : Text) (blank : IsBlank padding) (no_break : '\n' ∉ padding)

namespace InfoLine

/-- The line as it is written. -/
def text : InfoLine → Text
  | header text _ => SECTION_PREFIX :: text
  | field name value => name.text ++ FIELD_SEPARATOR :: value.text
  | blank padding _ _ => padding

/-- The field the line gives. -/
def entry : InfoLine → Option (Text × Text)
  | field name value => some (name.text, value.text)
  | _ => none

/-- No line has a line break in itself, so joining and splitting lines
fit together. -/
theorem no_break (line : InfoLine) : '\n' ∉ line.text := by
  cases line with
  | header text hbreak => simpa [InfoLine.text, SECTION_PREFIX] using hbreak
  | field name value =>
      simpa [InfoLine.text, FIELD_SEPARATOR] using ⟨name.no_break, value.no_break⟩
  | blank padding _ hbreak => exact hbreak

/-- A written line is read back, with what is left of a line break
behind it. -/
theorem readLine_text (line : InfoLine) {trail : Text} (htrail : IsBlank trail) :
    readLine (line.text ++ trail) = line.entry := by
  cases line with
  | header text _ => exact readLine_header (text ++ trail)
  | field name value =>
      have hblank : IsBlank [] := by simp [IsBlank]
      exact readLine_field hblank name.valid value.tight htrail
  | blank padding hpadding _ =>
      refine readLine_blank fun c hc => ?_
      rcases List.mem_append.mp hc with hc | hc
      · exact hpadding c hc
      · exact htrail c hc

end InfoLine

/-- How the lines are separated. -/
inductive LineBreak
  | lf
  | crlf

/-- What comes before the line feed. -/
def LineBreak.carriage : LineBreak → Text
  | lf => []
  | crlf => ['\r']

/-- What a line break leaves at the end of a line is white space, which is
trimmed away. -/
theorem LineBreak.isBlank_carriage (eol : LineBreak) : IsBlank eol.carriage := by
  cases eol with
  | lf => simp [carriage, IsBlank]
  | crlf => simpa [carriage, IsBlank] using (by decide : isJsWhitespace '\r' = true)

/-- What a line break leaves at the end of a line is no line feed. -/
theorem LineBreak.no_break_carriage (eol : LineBreak) : '\n' ∉ eol.carriage := by
  cases eol <;> simp [carriage]

/-- The lines, joined. -/
def renderInfo (eol : LineBreak) (lines : List InfoLine) : Text :=
  (eol.carriage ++ ['\n']).intercalate (lines.map InfoLine.text)

/-- The fields of a rendered text are those of its lines. Blank lines and
headers add nothing, whether the lines end in a line feed or in a carriage
return with one. -/
theorem infoEntries_render (eol : LineBreak) (lines : List InfoLine) :
    infoEntries (renderInfo eol lines) = lines.filterMap InfoLine.entry := by
  have hblank : IsBlank [] := by simp [IsBlank]
  induction lines with
  | nil => rfl
  | cons line rest ih =>
      cases rest with
      | nil =>
          have hline := line.readLine_text hblank
          rw [List.append_nil] at hline
          rw [renderInfo, List.map_singleton, List.intercalate_singleton, infoEntries,
            List.splitOn_eq_singleton line.no_break, lineEntries]
          simp only [List.filterMap_cons, List.filterMap_nil, hline]
      | cons next rest =>
          have hbreak : '\n' ∉ line.text ++ eol.carriage := by
            simp [line.no_break, eol.no_break_carriage]
          have htext : renderInfo eol (line :: next :: rest) =
              (line.text ++ eol.carriage) ++ '\n' :: renderInfo eol (next :: rest) := by
            simp [renderInfo, List.intercalate_cons_cons]
          have hsplit : (renderInfo eol (line :: next :: rest)).splitOn '\n' =
              (line.text ++ eol.carriage) :: (renderInfo eol (next :: rest)).splitOn '\n' := by
            rw [htext, List.splitOn_append_cons_self_of_not_mem hbreak]
          rw [infoEntries, hsplit, lineEntries, List.filterMap_cons,
            line.readLine_text eol.isBlank_carriage, List.filterMap_cons]
          unfold infoEntries lineEntries at ih
          rw [ih]

/-- **Parsing inverts rendering.**  The parsed map of rendered lines sends each
name to its last rendered value and has no other entry. -/
theorem parseInfoFields_render (eol : LineBreak) (lines : List InfoLine) (name value : Text) :
    (parseInfoFields (renderInfo eol lines)).lookup name = some value ↔
      ∃ before after, lines.filterMap InfoLine.entry = before ++ (name, value) :: after ∧
        name ∉ after.map Prod.fst := by
  rw [parseInfoFields_lookup, infoEntries_render]
  exact KeyedBatch.writeAll_eq_some_iff

example : (parseInfoFields "# Keyspace: all\r\ndb0:keys=1,expires=0\r\n\r\ndb0:\r\n".toList).keys =
    ["db0".toList] := by decide

end NestCache
