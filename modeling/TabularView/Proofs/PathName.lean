import Mathlib.Data.List.TakeWhile
import TabularView.PathName
import TabularView.Proofs.Column.Names
import TabularView.Proofs.Storage.KeySpace

set_option autoImplicit false

/-! # Tables named after files

However a path looks, the table named after it has a name of small letters, digits and underscores
(`PathName.isTableName_tableName`). Such a name has neither dots nor slashes, so it is a proper
segment, as a path it is its own stem, and the table named after it has the name itself. Of no other
name is that so (`PathName.tableName_eq_self_iff`).

A model takes such a name as it is, into what the engine calls the table and into all keys
(`Model.Proper.takes`). -/

namespace TabularView

theorem Text.toLower_eq_self_iff {c : Char} : c.toLower = c ↔ ¬ ('A' ≤ c ∧ c ≤ 'Z') := by
  unfold Char.toLower
  simp only [Char.le_def]
  split
  · rw [Char.ext_iff]
    grind
  · grind

namespace PathName

/-! ## Names -/

/-- A small ASCII letter, a digit or an underscore. -/
def isTableChar (c : Char) : Bool :=
  ('a' ≤ c && c ≤ 'z') || ('0' ≤ c && c ≤ '9') || c == '_'

/-- These are the characters of column names that have no capital. -/
theorem isTableChar_iff {c : Char} :
    isTableChar c = true ↔ ColumnName.isPlain c = true ∧ c.toLower = c := by
  rw [Text.toLower_eq_self_iff]
  simp only [isTableChar, ColumnName.isPlain, Bool.or_eq_true, Bool.and_eq_true, decide_eq_true_eq,
    beq_iff_eq, Char.le_def, Char.ext_iff]
  grind

theorem isTableChar_toLower {c : Char} (h : ColumnName.isPlain c = true) :
    isTableChar c.toLower = true := by
  simp only [isTableChar, ColumnName.isPlain, Bool.or_eq_true, Bool.and_eq_true, decide_eq_true_eq,
    beq_iff_eq, Char.le_def, Char.ext_iff] at h ⊢
  unfold Char.toLower
  split <;> grind

theorem isBlank_of_isTableChar {c : Char} (h : isTableChar c = true) :
    Text.isBlank c = false := by
  simp only [isTableChar, Bool.or_eq_true, Bool.and_eq_true, decide_eq_true_eq, beq_iff_eq] at h
  rcases h with (⟨hlow, hhigh⟩ | ⟨hlow, hhigh⟩) | rfl
  · have hlow : 97 ≤ c.toNat := hlow
    have hhigh : c.toNat ≤ 122 := hhigh
    exact Text.isBlank_of_printable (by omega) (by omega)
  · have hlow : 48 ≤ c.toNat := hlow
    have hhigh : c.toNat ≤ 57 := hhigh
    exact Text.isBlank_of_printable (by omega) (by omega)
  · decide

/-- A name of small ASCII letters, digits and underscores, and of at least one of them. -/
structure IsTableName (name : String) : Prop where
  ne_empty : name ≠ ""
  small : ∀ c ∈ name.toList, isTableChar c = true

namespace IsTableName

variable {name : String}

theorem isValid (h : IsTableName name) : ColumnName.IsValid name where
  ne_empty := h.ne_empty
  plain := by
    intro c hc
    exact (isTableChar_iff.1 (h.small c hc)).1

theorem isSmall (h : IsTableName name) : Text.IsSmall name := by
  have hsame : ∀ c ∈ name.toList, c.toLower = c := by
    intro c hc
    exact (isTableChar_iff.1 (h.small c hc)).2
  apply String.toList_inj.mp
  rw [Text.toList_lowerAscii]
  exact (List.map_congr_left hsame).trans (List.map_id _)

theorem not_mem (h : IsTableName name) {c : Char} (hc : isTableChar c = false) :
    c ∉ name.toList := by
  intro hmem
  rw [h.small c hmem] at hc
  cases hc

theorem isSegment (h : IsTableName name) : isSegment name = true := by
  have hdot : '.' ∉ name.toList := h.not_mem (by decide)
  have hslash : '/' ∉ name.toList := h.not_mem (by decide)
  refine (isSegment_iff name).2 ⟨?_, ?_, ?_, hslash⟩
  · intro hempty
    exact h.ne_empty (String.toList_inj.mp hempty)
  · intro heq
    simp [heq] at hdot
  · intro heq
    simp [heq] at hdot

theorem trim_eq (h : IsTableName name) : Text.trim name = name := by
  have hblank : ∀ c ∈ name.toList, Text.isBlank c = false := by
    intro c hc
    exact isBlank_of_isTableChar (h.small c hc)
  rw [Text.trim, Text.trimmed_eq_self, String.ofList_toList]
  · exact fun c hc => hblank c (List.mem_of_mem_head? hc)
  · exact fun c hc => hblank c (List.mem_of_getLast? hc)

end IsTableName

/-! ## Paths without directories -/

/-- What can stand between slashes is the file name of the path that it makes up. -/
theorem fileNameChars?_of_isSegment {name : String} (h : isSegment name = true) :
    fileNameChars? name = some name.toList := by
  obtain ⟨hempty, hdot, hdots, hslash⟩ := (isSegment_iff name).1 h
  have hparts : parts name = [name.toList] := by
    rw [parts, Text.splitAt_of_not_mem hslash]
    simp [hempty, hdot]
  rw [fileNameChars?, hparts]
  simp [hdots]

/-- A file name without dots has no extension. -/
theorem splitExtension_of_not_mem {name : List Char} (h : '.' ∉ name) :
    splitExtension name = (name, none) := by
  have hnone : name.reverse.dropWhile (· != '.') = [] := by
    rw [List.dropWhile_eq_nil_iff]
    intro c hc
    have hne : c ≠ '.' := by
      rintro rfl
      exact h (List.mem_reverse.1 hc)
    simpa using hne
  have hsplit : Text.splitLast? '.' name = none := by
    rw [Text.splitLast?, hnone]
  rw [splitExtension, hsplit]

theorem IsTableName.stem?_eq {name : String} (h : IsTableName name) : stem? name = some name := by
  have hdot : '.' ∉ name.toList := h.not_mem (by decide)
  rw [stem?, fileNameChars?_of_isSegment h.isSegment, Option.map_some,
    splitExtension_of_not_mem hdot, String.ofList_toList]

/-! ## Tables -/

/-- The name is proper whatever is left of the path, and `table` is proper if nothing is. -/
theorem isTableName_tableName (path : String) : IsTableName (tableName path) := by
  unfold tableName
  dsimp only
  split
  · exact ⟨by decide, List.all_eq_true.1 rfl⟩
  · next hempty =>
      refine ⟨hempty, fun c hc => ?_⟩
      rw [Text.toList_lowerAscii, ColumnName.normalize, String.toList_ofList] at hc
      obtain ⟨d, hd, rfl⟩ := List.mem_map.1 hc
      exact isTableChar_toLower (ColumnName.isPlain_of_mem_normalizeChars hd)

/-- Nothing of a proper name is cut off, dropped or changed. -/
theorem IsTableName.tableName_eq {name : String} (h : IsTableName name) :
    tableName name = name := by
  have hname : Text.lowerAscii (ColumnName.normalize (Text.trim name)) = name := by
    rw [h.trim_eq, ColumnName.normalize_of_isValid h.isValid]
    exact h.isSmall
  rw [tableName, h.stem?_eq, Option.getD_some, hname]
  exact if_neg h.ne_empty

/-- The proper names are those that name their own tables. -/
theorem tableName_eq_self_iff {name : String} : tableName name = name ↔ IsTableName name := by
  constructor
  · intro h
    rw [← h]
    exact isTableName_tableName name
  · exact IsTableName.tableName_eq

/-- Directories and extensions are cut off, unless nothing but these is left of the path. -/
example : ["in/Q1 (2024).tar.gz", ".Hidden", "a b/..", "../.."].map tableName =
    ["q1__2024_tar", "hidden", "a_b", "table"] := by
  decide +kernel

end PathName

/-! ## Models -/

namespace Model

variable {m : Model}

/-- What the key of a file says if the name of its table is taken as it is. -/
def keyTaking (m : Model) (area : StorageArea) (table file : String) (time : Option Int := none) :
    ObjectKey where
  workspace := Text.lowerAscii m.workspace
  model := Text.lowerAscii m.model
  area := area
  table := table
  file := Text.lowerAscii file
  archivedAt := time

/-- A model takes the name of a table as it is: it is accepted as a segment and stands unchanged at
the end of the engine's name, in the directory of the table and in the keys of its files, of which
only the name of the file can be refused. From every key under which an object of the table is
stored it is read back, and any such object can be archived. -/
structure Takes (m : Model) (table : String) : Prop where
  segment_eq : segment "table" table = .ok table
  tableName_eq : m.tableName table = m.stem ++ table
  dataDirectory_eq : m.dataDirectory table = .ok (Text.joinWith "/"
    [Text.lowerAscii m.workspace, Text.lowerAscii m.model, "data", table, ""])
  keyIn_eq : ∀ area file, m.keyIn area table file =
    (segment "file" file).map fun file => (m.keyTaking area table file).text
  parse_eq : ∀ area file time key, m.Stores area table file time key →
    ObjectKey.parse key = .ok (m.keyTaking area table file time)
  archiveKey_eq : ∀ area file time key, m.Stores area table file time key → ∀ millis,
    ObjectKey.archiveKey key millis = .ok (m.keyTaking area table file (some millis)).text

/-- Among the names in a key only that of the file is left to be refused. -/
theorem Proper.keyIn_eq_map (hm : m.Proper) (area : StorageArea) {table : String}
    (htable : isSegment table = true) (file : String) :
    m.keyIn area table file =
      (segment "file" file).map fun file => (m.objectIn area table file).lower.text := by
  by_cases hfile : isSegment file = true
  · rw [hm.keyIn_eq area htable hfile, (segment_eq_ok_iff "file" _ _).2 ⟨hfile, rfl⟩]
    rfl
  · have hworkspace := (segment_eq_ok_iff "workspace" _ _).2 ⟨hm.workspace, rfl⟩
    have hmodel := (segment_eq_ok_iff "model" _ _).2 ⟨hm.model, rfl⟩
    have htable := (segment_eq_ok_iff "table" _ _).2 ⟨htable, rfl⟩
    have hrefused : segment "file" file = .error (.unexpected (.badSegment "file" file)) :=
      if_neg hfile
    cases area with
    | input =>
        unfold keyIn landingKey
        rw [hworkspace, hmodel, htable, hrefused]
        rfl
    | data =>
        unfold keyIn columnarKey dataDirectory
        rw [hworkspace, hmodel, htable, hrefused]
        rfl

/-- Only files with proper names are stored. -/
theorem Stores.isSegment_file {area : StorageArea} {table file key : String} {time : Option Int}
    (h : m.Stores area table file time key) (hm : m.Proper) (htable : isSegment table = true) :
    isSegment file = true := by
  induction h with
  | live h =>
      rw [hm.keyIn_eq_map area htable] at h
      cases hfile : segment "file" file with
      | ok accepted => exact ((segment_eq_ok_iff _ _ _).1 hfile).1
      | error f =>
          rw [hfile] at h
          cases h
  | archived _ _ _ ih => exact ih

theorem storedObject_eq_keyTaking {table : String} (h : Text.IsSmall table) (area : StorageArea)
    (file : String) (time : Option Int) :
    m.storedObject area table file time = m.keyTaking area table file time := by
  unfold storedObject objectIn keyTaking ObjectKey.lower
  rw [h]

/-- A model with proper ids takes every segment in small letters as it is. -/
theorem Proper.takes (hm : m.Proper) {table : String} (htable : isSegment table = true)
    (hsmall : Text.IsSmall table) : m.Takes table := by
  have hparse : ∀ area file time key, m.Stores area table file time key →
      ObjectKey.parse key = .ok (m.keyTaking area table file time) := by
    intro area file time key h
    have hfile := h.isSegment_file hm htable
    have hvalid : (m.storedObject area table file time).Valid :=
      hm.valid_storedObject htable hfile h.isSigned64
    rw [h.key_eq hm htable hfile, hvalid.parse_text, storedObject_eq_keyTaking hsmall]
  refine ⟨(segment_eq_ok_iff "table" _ _).2 ⟨htable, rfl⟩, ?_, ?_, ?_, hparse, ?_⟩
  · rw [tableName_eq, hsmall]
  · rw [hm.dataDirectory_eq htable, directoryParts, hsmall]
    rfl
  · intro area file
    have hkey : ∀ file, (m.objectIn area table file).lower = m.keyTaking area table file :=
      fun file => storedObject_eq_keyTaking hsmall area file none
    simp only [hm.keyIn_eq_map area htable, hkey]
  · intro area file time key h millis
    have hlower : (m.keyTaking area table file time).lower.archived millis =
        m.keyTaking area table file (some millis) := by
      unfold keyTaking ObjectKey.lower ObjectKey.archived
      simp only [Text.lowerAscii_lowerAscii]
      rw [hsmall]
    rw [ObjectKey.archiveKey_of_parse (hparse area file time key h), hlower]

end Model

end TabularView
