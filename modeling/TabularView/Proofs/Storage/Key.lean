import TabularView.Proofs.Fallible
import TabularView.Proofs.Storage.EngineNames
import TabularView.Proofs.Text.Digit
import TabularView.Storage.Key

set_option autoImplicit false

/-! # Reading object keys back

No name in a key has a slash, so a key falls into the parts that it was put together from, and their
number says whether it is that of an archived object. Hence a proper key is read back as it was
written, whatever its names look like (`ObjectKey.Valid.parse_text`). What is read from a text is
proper, even if the text is not what would be written: it may have slashes in front, or zeros before
the time (`ObjectKey.valid_of_parse_eq_ok`).

Keys are written in small letters. `ObjectKey.keys_round_trip` says what is read from the keys of a
file and from those of its archived objects, and that archiving an object again only replaces the
time. -/

namespace TabularView

/-! ## Cutting texts -/

namespace Text

theorem splitAt_of_not_mem {sep : Char} {s : List Char} (h : sep ∉ s) : splitAt sep s = [s] := by
  induction s with
  | nil => rfl
  | cons c rest ih =>
      obtain ⟨hc, hrest⟩ := List.ne_and_not_mem_of_not_mem_cons h
      rw [splitAt, if_neg (Ne.symm hc), ih hrest]

/-- What stands before a separator is a piece of its own. -/
theorem splitAt_append {sep : Char} {s : List Char} (h : sep ∉ s) (rest : List Char) :
    splitAt sep (s ++ sep :: rest) = s :: splitAt sep rest := by
  induction s with
  | nil => simp [splitAt]
  | cons c s ih =>
      obtain ⟨hc, hs⟩ := List.ne_and_not_mem_of_not_mem_cons h
      rw [List.cons_append, splitAt, if_neg (Ne.symm hc), ih hs]

/-- Texts without slashes are found again between the slashes. -/
theorem splitAt_joinWith {texts : List String} (hne : texts ≠ [])
    (h : ∀ s ∈ texts, '/' ∉ s.toList) :
    splitAt '/' (joinWith "/" texts).toList = texts.map (·.toList) := by
  induction texts with
  | nil => exact absurd rfl hne
  | cons s rest ih =>
      obtain ⟨hs, hrest⟩ := List.forall_mem_cons.1 h
      cases rest with
      | nil => exact splitAt_of_not_mem hs
      | cons t rest =>
          have hchars : (joinWith "/" (s :: t :: rest)).toList =
              s.toList ++ '/' :: (joinWith "/" (t :: rest)).toList := by
            rw [joinWith_cons_cons]
            simp
          rw [hchars, splitAt_append hs, ih (by simp) hrest]
          rfl

/-! ## Small letters -/

theorem toLower_of_isDigit {c : Char} (h : c.isDigit = true) : c.toLower = c := by
  unfold Char.toLower
  simp only [Char.isDigit, Bool.and_eq_true, decide_eq_true_eq] at h
  grind

/-- Numbers have no letters. -/
theorem lowerAscii_toString (n : Int) : lowerAscii (toString n) = toString n := by
  have hsame : ∀ c ∈ (toString n).toList, c.toLower = c := by
    intro c hc
    rcases isDigit_or_eq_minus_of_mem_toString hc with hdigit | rfl
    · exact toLower_of_isDigit hdigit
    · rfl
  apply String.toList_inj.mp
  rw [toList_lowerAscii]
  exact (List.map_congr_left hsame).trans (List.map_id _)

theorem lowerAscii_lowerAscii (s : String) : lowerAscii (lowerAscii s) = lowerAscii s :=
  isSmall_lowerAscii s

end Text

/-- Letters do not decide about segments. -/
theorem isSegment_lowerAscii (value : String) :
    isSegment (Text.lowerAscii value) = isSegment value := by
  have hdot : ∀ c : Char, c.toLower = '.' ↔ c = '.' := fun _ => Text.toLower_eq_iff (by decide)
  have hslash : ∀ c : Char, c.toLower = '/' ↔ c = '/' := fun _ => Text.toLower_eq_iff (by decide)
  rw [Bool.eq_iff_iff, isSegment_iff, isSegment_iff, Text.toList_lowerAscii]
  simp [List.map_eq_cons_iff, hdot, hslash]

namespace ObjectKey

/-! ## Proper keys -/

/-- All names in the key are proper segments, and its time fits in 64 bits. -/
structure Valid (k : ObjectKey) : Prop where
  workspace : isSegment k.workspace = true
  model : isSegment k.model = true
  table : isSegment k.table = true
  file : isSegment k.file = true
  archivedAt : ∀ millis, k.archivedAt = some millis → isSigned64 millis = true

/-- The key of the same object in small letters. -/
def lower (k : ObjectKey) : ObjectKey :=
  { k with
    workspace := Text.lowerAscii k.workspace
    model := Text.lowerAscii k.model
    table := Text.lowerAscii k.table
    file := Text.lowerAscii k.file }

theorem lower_lower (k : ObjectKey) : k.lower.lower = k.lower := by
  simp only [lower, Text.lowerAscii_lowerAscii]

theorem Valid.lower {k : ObjectKey} (h : k.Valid) : k.lower.Valid where
  workspace := (isSegment_lowerAscii _).trans h.workspace
  model := (isSegment_lowerAscii _).trans h.model
  table := (isSegment_lowerAscii _).trans h.table
  file := (isSegment_lowerAscii _).trans h.file
  archivedAt := h.archivedAt

theorem Valid.archived {k : ObjectKey} (h : k.Valid) {millis : Int}
    (hmillis : isSigned64 millis = true) : (k.archived millis).Valid where
  workspace := h.workspace
  model := h.model
  table := h.table
  file := h.file
  archivedAt := by
    intro other hother
    obtain rfl := Option.some.inj hother
    exact hmillis

/-- Areas, times and endings are written in small letters anyway. -/
theorem text_lower (k : ObjectKey) : k.lower.text = Text.lowerAscii k.text := by
  obtain ⟨workspace, model, area, table, file, archivedAt⟩ := k
  have hslash : Text.lowerAscii "/" = "/" := by decide
  have harchive : Text.lowerAscii "archive/" = "archive/" := by decide
  have hempty : Text.lowerAscii "" = "" := by decide
  have hending : Text.lowerAscii columnarEnding = columnarEnding := by decide
  have hdirectory : Text.lowerAscii area.directory = area.directory := by
    cases area <;> decide
  cases archivedAt <;> cases area <;>
    simp only [text, lower, objectName, Text.lowerAscii_append, Text.lowerAscii_toString, hslash,
      harchive, hempty, hending, hdirectory]

/-! ## Parts -/

/-- What stands between the model and the area of a key. -/
def timeParts (k : ObjectKey) : List String :=
  match k.archivedAt with
  | some millis => ["archive", toString millis]
  | none => []

/-- The parts of a key between its slashes. -/
def parts (k : ObjectKey) : List String :=
  k.workspace :: k.model :: (k.timeParts ++ [k.area.directory, k.table, k.objectName])

/-- A key is written by putting slashes between its parts. -/
theorem text_eq (k : ObjectKey) : k.text = Text.joinWith "/" k.parts := by
  have harchive : "archive/" = "archive" ++ "/" := rfl
  unfold text parts timeParts
  cases k.archivedAt with
  | none => simp [Text.joinWith, String.append_assoc]
  | some millis => simp [Text.joinWith, String.append_assoc, harchive]

theorem slash_not_mem_of_isSegment {value : String} (h : isSegment value = true) :
    '/' ∉ value.toList :=
  ((isSegment_iff value).1 h).2.2.2

theorem slash_not_mem_toString (n : Int) : '/' ∉ (toString n).toList := by
  intro h
  rcases Text.isDigit_or_eq_minus_of_mem_toString h with hdigit | hminus
  · exact absurd hdigit (by decide)
  · exact absurd hminus (by decide)

theorem Valid.slash_not_mem_objectName {k : ObjectKey} (h : k.Valid) :
    '/' ∉ k.objectName.toList := by
  have hfile := slash_not_mem_of_isSegment h.file
  unfold objectName
  cases k.area with
  | input => exact hfile
  | data =>
      rw [String.toList_append, List.mem_append]
      exact fun hmem => hmem.elim hfile (by decide)

theorem Valid.slash_not_mem_parts {k : ObjectKey} (h : k.Valid) :
    ∀ part ∈ k.parts, '/' ∉ part.toList := by
  have hdirectory : '/' ∉ k.area.directory.toList := by
    cases k.area <;> decide
  have htime : ∀ part ∈ k.timeParts, '/' ∉ part.toList := by
    unfold timeParts
    cases k.archivedAt with
    | none => exact List.forall_mem_nil _
    | some millis =>
        exact List.forall_mem_cons.2
          ⟨by decide, List.forall_mem_singleton.2 (slash_not_mem_toString millis)⟩
  unfold parts
  simp only [List.forall_mem_cons, List.forall_mem_append]
  exact ⟨slash_not_mem_of_isSegment h.workspace, slash_not_mem_of_isSegment h.model, htime,
    hdirectory, slash_not_mem_of_isSegment h.table, h.slash_not_mem_objectName,
    List.forall_mem_nil _⟩

/-- No slash stands in front of a key. -/
theorem Valid.dropWhile_text {k : ObjectKey} (h : k.Valid) :
    k.text.toList.dropWhile (· == '/') = k.text.toList := by
  obtain ⟨hne, -, -, hslash⟩ := (isSegment_iff _).1 h.workspace
  obtain ⟨c, rest, hchars⟩ := List.exists_cons_of_ne_nil hne
  have hc : c ≠ '/' := by
    rintro rfl
    exact hslash (hchars ▸ List.mem_cons_self ..)
  unfold text
  simp only [String.toList_append, List.append_assoc, hchars, List.cons_append]
  exact List.dropWhile_cons_of_neg (by simpa using hc)

/-! ## Reading -/

theorem dropEnding?_append (file : List Char) :
    dropEnding? (file ++ columnarEnding.toList) = some file := by
  have hsuffix : columnarEnding.toList.isSuffixOf (file ++ columnarEnding.toList) = true :=
    List.isSuffixOf_iff_suffix.2 (List.suffix_append ..)
  simp [dropEnding?, hsuffix]

theorem areaAndFile?_objectName (k : ObjectKey) :
    areaAndFile? k.area.directory.toList k.objectName.toList = some (k.area, k.file.toList) := by
  unfold areaAndFile? objectName
  cases k.area with
  | input => rfl
  | data =>
      have hne : StorageArea.data.directory.toList ≠ "input".toList := by decide
      dsimp only
      rw [if_neg hne, String.toList_append, dropEnding?_append]
      rfl

/-- The number of parts tells the key of an archived object from that of a live one. -/
theorem Valid.layout?_parts {k : ObjectKey} (h : k.Valid) :
    layout? ((k.timeParts ++ [k.area.directory, k.table, k.objectName]).map (·.toList)) =
      some (k.archivedAt, k.area.directory.toList, k.table.toList, k.objectName.toList) := by
  unfold timeParts
  cases harchived : k.archivedAt with
  | none => rfl
  | some millis =>
      have hread := Text.readInt64?_toString (h.archivedAt millis harchived)
      simp only [List.cons_append, List.nil_append, List.map_cons, List.map_nil, layout?, if_true,
        hread]
      rfl

theorem Valid.shape?_text {k : ObjectKey} (h : k.Valid) : shape? k.text = some k := by
  have hsplit : Text.splitAt '/' k.text.toList = k.parts.map (·.toList) := by
    rw [text_eq]
    exact Text.splitAt_joinWith (List.cons_ne_nil _ _) h.slash_not_mem_parts
  rw [shape?, h.dropWhile_text, hsplit, parts, List.map_cons, List.map_cons]
  simp only [h.layout?_parts, areaAndFile?_objectName, Option.bind_eq_bind, Option.bind_some,
    String.ofList_toList]

theorem parse_eq_ok_iff {key : String} {k : ObjectKey} :
    parse key = .ok k ↔ shape? key = some k ∧ isSegment k.workspace = true ∧
      isSegment k.model = true ∧ isSegment k.table = true ∧ isSegment k.file = true := by
  unfold parse
  cases hshape : shape? key with
  | none => simp
  | some other =>
      simp only [bind_eq_ok_iff, segment_eq_ok_iff]
      constructor
      · rintro ⟨_, ⟨hworkspace, -⟩, _, ⟨hmodel, -⟩, _, ⟨htable, -⟩, _, ⟨hfile, -⟩, hk⟩
        obtain rfl := Except.ok.inj hk
        exact ⟨rfl, hworkspace, hmodel, htable, hfile⟩
      · rintro ⟨hk, hworkspace, hmodel, htable, hfile⟩
        obtain rfl := Option.some.inj hk
        exact ⟨_, ⟨hworkspace, rfl⟩, _, ⟨hmodel, rfl⟩, _, ⟨htable, rfl⟩, _, ⟨hfile, rfl⟩, rfl⟩

/-- A proper key is read back as it was written. -/
theorem Valid.parse_text {k : ObjectKey} (h : k.Valid) : parse k.text = .ok k :=
  parse_eq_ok_iff.2 ⟨h.shape?_text, h.workspace, h.model, h.table, h.file⟩

/-- A time that has been read fits in 64 bits. -/
theorem isSigned64_of_layout? {rest : List (List Char)} {archivedAt : Option Int}
    {directory table object : List Char}
    (h : layout? rest = some (archivedAt, directory, table, object)) {millis : Int}
    (hmillis : archivedAt = some millis) : isSigned64 millis = true := by
  subst hmillis
  unfold layout? at h
  split at h
  · simp at h
  · split at h
    · obtain ⟨read, hread, heq⟩ := Option.map_eq_some_iff.1 h
      obtain rfl := Option.some.inj (Prod.mk.inj heq).1
      exact Text.isSigned64_of_readInt64? hread
    · cases h
  · cases h

theorem isSigned64_of_shape? {key : String} {k : ObjectKey} (h : shape? key = some k)
    {millis : Int} (hmillis : k.archivedAt = some millis) : isSigned64 millis = true := by
  unfold shape? at h
  split at h
  · obtain ⟨⟨archivedAt, directory, table, object⟩, hlayout, h⟩ := Option.bind_eq_some_iff.1 h
    obtain ⟨⟨area, file⟩, -, h⟩ := Option.bind_eq_some_iff.1 h
    obtain rfl := Option.some.inj h
    exact isSigned64_of_layout? hlayout hmillis
  · cases h

/-- What is read is a proper key. -/
theorem valid_of_parse_eq_ok {key : String} {k : ObjectKey} (h : parse key = .ok k) :
    k.Valid := by
  obtain ⟨hshape, hworkspace, hmodel, htable, hfile⟩ := parse_eq_ok_iff.1 h
  exact ⟨hworkspace, hmodel, htable, hfile, fun _ hmillis => isSigned64_of_shape? hshape hmillis⟩

/-! ## Archiving -/

/-- The key of an archived object is written in small letters, whatever those of the live one. -/
theorem archiveKey_of_parse {key : String} {k : ObjectKey} (h : parse key = .ok k) (millis : Int) :
    archiveKey key millis = .ok (k.lower.archived millis).text := by
  have hlower : (k.lower.archived millis).text = Text.lowerAscii (k.archived millis).text :=
    text_lower (k.archived millis)
  rw [archiveKey, h, hlower]
  rfl

/-- The key of an archived object is read back with its time. -/
theorem parse_archived {k : ObjectKey} (h : k.Valid) {millis : Int}
    (hmillis : isSigned64 millis = true) :
    parse (k.lower.archived millis).text = .ok (k.lower.archived millis) :=
  (h.lower.archived hmillis).parse_text

/-- Archiving an object again is as archiving it for the first time. -/
theorem archiveKey_again {key archived : String} {k : ObjectKey} (h : parse key = .ok k)
    {millis : Int} (hmillis : isSigned64 millis = true)
    (harchived : archiveKey key millis = .ok archived) (later : Int) :
    archiveKey archived later = archiveKey key later := by
  rw [archiveKey_of_parse h] at harchived ⊢
  obtain rfl := Except.ok.inj harchived
  rw [archiveKey_of_parse (parse_archived (valid_of_parse_eq_ok h) hmillis)]
  have hsame : (k.lower.archived millis).lower.archived later = k.lower.archived later :=
    congrArg (·.archived later) k.lower_lower
  rw [hsame]

end ObjectKey

/-! ## The keys of a file -/

namespace Model

variable {m : Model}

/-- Where a file of a table is kept in an area. -/
def keyIn (m : Model) (area : StorageArea) (table file : String) : Except Failure String :=
  match area with
  | .input => m.landingKey table file
  | .data => m.columnarKey table file

/-- What the key of a file of a table says in an area, in the letters of the names themselves. -/
def objectIn (m : Model) (area : StorageArea) (table file : String) : ObjectKey where
  workspace := m.workspace
  model := m.model
  area := area
  table := table
  file := file

theorem Proper.valid_objectIn (hm : m.Proper) (area : StorageArea) {table file : String}
    (htable : isSegment table = true) (hfile : isSegment file = true) :
    (m.objectIn area table file).Valid where
  workspace := hm.workspace
  model := hm.model
  table := htable
  file := hfile
  archivedAt := fun _ h => nomatch h

/-- Both keys of a file are written as keys are, and then in small letters. -/
theorem Proper.keyIn_eq (hm : m.Proper) (area : StorageArea) {table file : String}
    (htable : isSegment table = true) (hfile : isSegment file = true) :
    m.keyIn area table file = .ok (m.objectIn area table file).lower.text := by
  have hworkspace := (segment_eq_ok_iff "workspace" _ _).2 ⟨hm.workspace, rfl⟩
  have hmodel := (segment_eq_ok_iff "model" _ _).2 ⟨hm.model, rfl⟩
  have htable := (segment_eq_ok_iff "table" _ _).2 ⟨htable, rfl⟩
  have hfile := (segment_eq_ok_iff "file" _ _).2 ⟨hfile, rfl⟩
  have hending : Text.lowerAscii columnarEnding = columnarEnding := by decide
  rw [ObjectKey.text_lower]
  cases area with
  | input =>
      have hinput : "/input/" = "/" ++ ("input" ++ "/") := rfl
      unfold keyIn landingKey
      rw [hworkspace, hmodel, htable, hfile]
      show Except.ok (Text.lowerAscii _) = .ok (Text.lowerAscii _)
      simp only [ObjectKey.text, ObjectKey.objectName, objectIn, StorageArea.directory, hinput,
        String.append_assoc, String.append_empty]
  | data =>
      have hdata : "/data/" = "/" ++ ("data" ++ "/") := rfl
      unfold keyIn columnarKey dataDirectory
      rw [hworkspace, hmodel, htable, hfile]
      show Except.ok (Text.lowerAscii _ ++ Text.lowerAscii _ ++ _) = .ok (Text.lowerAscii _)
      rw [← hending, ← Text.lowerAscii_append, ← Text.lowerAscii_append]
      simp only [ObjectKey.text, ObjectKey.objectName, objectIn, StorageArea.directory, hdata,
        String.append_assoc, String.append_empty]

end Model

namespace ObjectKey

/-- A file whose names are proper segments has a key in both areas. What is read from it are the
names in small letters, without a time; from the key of the archived object the same is read, with
the time; and archiving that once more is archiving the file at the later time. As to keys in
general, a proper one is read back as it was written, and what is read from a text is proper. -/
theorem keys_round_trip {m : Model} (hm : m.Proper) {table file : String}
    (htable : isSegment table = true) (hfile : isSegment file = true) :
    (∀ area, ∃ key, m.keyIn area table file = .ok key ∧
      parse key = .ok (m.objectIn area table file).lower ∧
      ∀ millis, isSigned64 millis = true → ∃ archivedKey,
        archiveKey key millis = .ok archivedKey ∧
        parse archivedKey = .ok ((m.objectIn area table file).lower.archived millis) ∧
        ∀ later, isSigned64 later = true →
          archiveKey archivedKey later = archiveKey key later) ∧
    (∀ k : ObjectKey, k.Valid → parse k.text = .ok k) ∧
    ∀ key k, parse key = .ok k → k.Valid ∧ parse k.text = .ok k := by
  refine ⟨fun area => ?_, fun k hk => hk.parse_text, fun key k hread => ?_⟩
  · have hvalid := (hm.valid_objectIn area htable hfile).lower
    have hread := hvalid.parse_text
    refine ⟨_, hm.keyIn_eq area htable hfile, hread, fun millis hmillis => ?_⟩
    have harchived := archiveKey_of_parse hread millis
    have hreadArchived := parse_archived hvalid hmillis
    rw [lower_lower] at harchived hreadArchived
    exact ⟨_, harchived, hreadArchived,
      fun later _ => archiveKey_again hread hmillis harchived later⟩
  · exact ⟨valid_of_parse_eq_ok hread, (valid_of_parse_eq_ok hread).parse_text⟩

/-- Names may look like the parts of a key that are no names, and times may lie before 1970. -/
theorem keys_round_trip_of_confusing_names :
    isSegment "archive" = true ∧ ∃ archivedKey,
      archiveKey "archive/5/data/input/.parquet.parquet" (-1) = .ok archivedKey ∧
      parse archivedKey = .ok
        (((Model.mk "Archive" "5").objectIn .data "Input" ".PARQUET").lower.archived (-1)) := by
  have hall := @keys_round_trip ⟨"Archive", "5"⟩ ⟨by decide, by decide⟩ "Input" ".PARQUET"
    (by decide) (by decide)
  obtain ⟨key, hkey, -, harchive⟩ := hall.1 .data
  have hkeyText : key = "archive/5/data/input/.parquet.parquet" :=
    Except.ok.inj (hkey.symm.trans (by decide))
  obtain ⟨archivedKey, harchived, hread, -⟩ := harchive (-1) (by decide)
  exact ⟨by decide, archivedKey, hkeyText ▸ harchived, hread⟩

end ObjectKey

end TabularView
