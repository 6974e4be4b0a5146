import TabularView.Proofs.Storage.Key

set_option autoImplicit false

/-! # Objects kept apart

A key falls into its parts at the slashes, and so does a directory; hence a directory holds exactly
the keys that start with its parts (`Text.joinWith_prefix_iff`), however the names begin or end.

The objects of a file are stored under the keys of the file and under those that archiving makes of
them (`Model.Stores`). Two of these keys are the same only for the same file, in small letters, in
the same area and archived at the same time. The directory of a table holds the live columnar
objects of that table and nothing else (`Model.stores_apart`). -/

namespace TabularView

/-! ## Directories -/

namespace Text

/-- What stands in front of the first separator decides. -/
theorem append_sep_prefix_iff {sep : Char} {a b rest rest' : List Char} (ha : sep ∉ a)
    (hb : sep ∉ b) : a ++ sep :: rest <+: b ++ sep :: rest' ↔ a = b ∧ rest <+: rest' := by
  constructor
  · intro h
    have hfront : ∀ s t : List Char, s ++ [sep] <+: s ++ sep :: t :=
      fun s t => ⟨t, List.append_assoc ..⟩
    obtain rfl : a = b := eq_of_concat_prefix ha hb ((hfront a rest).trans h) (hfront b rest')
    refine ⟨rfl, ?_⟩
    rwa [List.prefix_append_right_inj, List.prefix_cons_inj] at h
  · rintro ⟨rfl, h⟩
    rwa [List.prefix_append_right_inj, List.prefix_cons_inj]

theorem toList_joinWith_cons (s : String) {texts : List String} (hne : texts ≠ []) :
    (joinWith "/" (s :: texts)).toList = s.toList ++ '/' :: (joinWith "/" texts).toList := by
  obtain ⟨t, rest, rfl⟩ := List.exists_cons_of_ne_nil hne
  rw [joinWith_cons_cons]
  simp

/-- A directory is written with a slash at its end. It holds what starts with its parts and goes
on. -/
theorem joinWith_prefix_iff {directory texts : List String} (hne : texts ≠ [])
    (hdirectory : ∀ s ∈ directory, '/' ∉ s.toList) (htexts : ∀ s ∈ texts, '/' ∉ s.toList) :
    (joinWith "/" (directory ++ [""])).toList <+: (joinWith "/" texts).toList ↔
      directory <+: texts ∧ directory ≠ texts := by
  induction directory generalizing texts with
  | nil => exact iff_of_true List.nil_prefix ⟨List.nil_prefix, Ne.symm hne⟩
  | cons s directory ih =>
      obtain ⟨hs, hdirectory⟩ := List.forall_mem_cons.1 hdirectory
      obtain ⟨t, rest, rfl⟩ := List.exists_cons_of_ne_nil hne
      obtain ⟨ht, hrest⟩ := List.forall_mem_cons.1 htexts
      rw [List.cons_append, toList_joinWith_cons s (by simp)]
      cases rest with
      | nil =>
          -- a text without slashes lies in no directory
          have hslash : ¬ s.toList ++ '/' :: (joinWith "/" (directory ++ [""])).toList <+:
              (joinWith "/" [t]).toList := by
            intro h
            exact ht (h.subset (by simp))
          simp only [hslash, false_iff, not_and, not_not]
          intro h
          obtain ⟨rfl, hnil⟩ := List.cons_prefix_cons.1 h
          rw [List.prefix_nil.1 hnil]
      | cons u rest =>
          rw [toList_joinWith_cons t (by simp), append_sep_prefix_iff hs ht,
            ih (by simp) hdirectory hrest, List.cons_prefix_cons, String.toList_inj]
          constructor
          · rintro ⟨rfl, h, hdiffer⟩
            exact ⟨⟨rfl, h⟩, fun heq => hdiffer (List.cons.inj heq).2⟩
          · rintro ⟨⟨rfl, h⟩, hdiffer⟩
            exact ⟨rfl, h, fun heq => hdiffer (congrArg _ heq)⟩

end Text

namespace ObjectKey

/-- Proper keys are the same text only if they say the same. -/
theorem Valid.text_inj {k k' : ObjectKey} (h : k.Valid) (h' : k'.Valid) :
    k.text = k'.text ↔ k = k' := by
  constructor
  · intro htext
    have hread := h.parse_text
    rw [htext, h'.parse_text] at hread
    exact (Except.ok.inj hread).symm
  · exact congrArg text

end ObjectKey

namespace Model

variable {m m' : Model}

/-- The parts of the directory of a table's columnar objects. -/
def directoryParts (m : Model) (table : String) : List String :=
  [Text.lowerAscii m.workspace, Text.lowerAscii m.model, "data", Text.lowerAscii table]

theorem Proper.dataDirectory_eq (hm : m.Proper) {table : String}
    (htable : isSegment table = true) :
    m.dataDirectory table = .ok (Text.joinWith "/" (m.directoryParts table ++ [""])) := by
  have hworkspace := (segment_eq_ok_iff "workspace" _ _).2 ⟨hm.workspace, rfl⟩
  have hmodel := (segment_eq_ok_iff "model" _ _).2 ⟨hm.model, rfl⟩
  have htable := (segment_eq_ok_iff "table" _ _).2 ⟨htable, rfl⟩
  have hslash : Text.lowerAscii "/" = "/" := by decide
  have hdata : Text.lowerAscii "/data/" = "/" ++ ("data" ++ "/") := by decide
  unfold dataDirectory
  rw [hworkspace, hmodel, htable]
  show Except.ok (Text.lowerAscii _) = _
  simp only [Text.lowerAscii_append, hslash, hdata, directoryParts, List.cons_append,
    List.nil_append, Text.joinWith, String.append_assoc, String.append_empty]

theorem Proper.slash_not_mem_directoryParts (hm : m.Proper) {table : String}
    (htable : isSegment table = true) :
    ∀ part ∈ m.directoryParts table, '/' ∉ part.toList := by
  have hlower : ∀ {s : String}, isSegment s = true → '/' ∉ (Text.lowerAscii s).toList :=
    fun {s} hs => ObjectKey.slash_not_mem_of_isSegment ((isSegment_lowerAscii s).trans hs)
  unfold directoryParts
  simp only [List.forall_mem_cons]
  exact ⟨hlower hm.workspace, hlower hm.model, by decide, hlower htable, List.forall_mem_nil _⟩

/-- A table's directory holds the keys of its live columnar objects. -/
theorem Proper.directory_prefix_iff (hm : m.Proper) {table : String}
    (htable : isSegment table = true) {k : ObjectKey} (hk : k.Valid) :
    (Text.joinWith "/" (m.directoryParts table ++ [""])).toList <+: k.text.toList ↔
      k.area = .data ∧ k.archivedAt = none ∧ Text.lowerAscii m.workspace = k.workspace ∧
        Text.lowerAscii m.model = k.model ∧ Text.lowerAscii table = k.table := by
  have hne : k.parts ≠ [] := List.cons_ne_nil _ _
  rw [ObjectKey.text_eq, Text.joinWith_prefix_iff hne (hm.slash_not_mem_directoryParts htable)
    hk.slash_not_mem_parts]
  unfold directoryParts ObjectKey.parts ObjectKey.timeParts
  cases htime : k.archivedAt with
  | none =>
      have hdirectory : "data" = k.area.directory ↔ k.area = .data := by
        cases k.area <;> decide
      simp [List.cons_prefix_cons, hdirectory, and_left_comm]
  | some millis =>
      -- what is archived stands in a directory of its own
      simp [List.cons_prefix_cons]

/-! ## What is stored where -/

/-- The keys under which an object of a file is stored: that of the file itself, and those that
archiving makes of it, also if it is archived again. The time is that of the last archiving. -/
inductive Stores (m : Model) (area : StorageArea) (table file : String) :
    Option Int → String → Prop
  | live {key : String} (h : m.keyIn area table file = .ok key) : Stores m area table file none key
  | archived {time : Option Int} {key key' : String} {millis : Int}
      (hstored : Stores m area table file time key) (hmillis : isSigned64 millis = true)
      (h : ObjectKey.archiveKey key millis = .ok key') :
      Stores m area table file (some millis) key'

/-- What a stored object's key says, in small letters. -/
def storedObject (m : Model) (area : StorageArea) (table file : String) (time : Option Int) :
    ObjectKey :=
  { (m.objectIn area table file).lower with archivedAt := time }

variable {area : StorageArea} {table file key : String} {time : Option Int}

theorem Proper.valid_storedObject (hm : m.Proper) (htable : isSegment table = true)
    (hfile : isSegment file = true) (htime : ∀ millis ∈ time, isSigned64 millis = true) :
    (m.storedObject area table file time).Valid :=
  { (hm.valid_objectIn area htable hfile).lower with archivedAt := htime }

theorem Stores.isSigned64 (h : m.Stores area table file time key) :
    ∀ millis ∈ time, isSigned64 millis = true := by
  cases h with
  | live _ => exact fun _ hnone => nomatch hnone
  | archived _ hmillis _ =>
      intro millis hsome
      obtain rfl := Option.some.inj hsome
      exact hmillis

/-- The key says which object it is. -/
theorem Stores.key_eq (h : m.Stores area table file time key) (hm : m.Proper)
    (htable : isSegment table = true) (hfile : isSegment file = true) :
    key = (m.storedObject area table file time).text := by
  induction h with
  | live h =>
      rw [hm.keyIn_eq area htable hfile] at h
      exact (Except.ok.inj h).symm
  | @archived time key key' millis hstored _ h ih =>
      have hread : ObjectKey.parse key = .ok (m.storedObject area table file time) := by
        rw [ih]
        exact (hm.valid_storedObject htable hfile hstored.isSigned64).parse_text
      rw [ObjectKey.archiveKey_of_parse hread] at h
      obtain rfl := Except.ok.inj h
      have hlower := congrArg (·.archived millis) (m.objectIn area table file).lower_lower
      exact congrArg ObjectKey.text hlower

theorem Proper.exists_stores (hm : m.Proper) (htable : isSegment table = true)
    (hfile : isSegment file = true) (area : StorageArea)
    (htime : ∀ millis ∈ time, isSigned64 millis = true) :
    ∃ key, m.Stores area table file time key := by
  have hlive := hm.keyIn_eq area htable hfile
  cases time with
  | none => exact ⟨_, .live hlive⟩
  | some millis =>
      have hread := (hm.valid_objectIn area htable hfile).lower.parse_text
      have harchived := ObjectKey.archiveKey_of_parse hread millis
      exact ⟨_, .archived (.live hlive) (htime millis rfl) harchived⟩

/-- Files of tables of models, with proper names. Each has keys in both areas, live and for every
time of archiving. A key of one is a key of another exactly if area and time are the same and all
names are, in small letters. It lies in the directory of a table exactly if it is that of a live
columnar object and its workspace, model and table are those of the directory, in small letters. -/
theorem stores_apart {table' file' : String} (hm : m.Proper) (hm' : m'.Proper)
    (htable : isSegment table = true) (hfile : isSegment file = true)
    (htable' : isSegment table' = true) (hfile' : isSegment file' = true) :
    (∀ area time, (∀ millis ∈ time, isSigned64 millis = true) →
      ∃ key, m.Stores area table file time key) ∧
    ∀ area time key, m.Stores area table file time key →
      (∀ area' time' key', m'.Stores area' table' file' time' key' →
        (key = key' ↔ area = area' ∧ time = time' ∧
          Text.lowerAscii m.workspace = Text.lowerAscii m'.workspace ∧
          Text.lowerAscii m.model = Text.lowerAscii m'.model ∧
          Text.lowerAscii table = Text.lowerAscii table' ∧
          Text.lowerAscii file = Text.lowerAscii file')) ∧
      ∃ directory, m'.dataDirectory table' = .ok directory ∧
        (directory.toList <+: key.toList ↔ area = .data ∧ time = none ∧
          Text.lowerAscii m'.workspace = Text.lowerAscii m.workspace ∧
          Text.lowerAscii m'.model = Text.lowerAscii m.model ∧
          Text.lowerAscii table' = Text.lowerAscii table) := by
  refine ⟨fun area time htime => hm.exists_stores htable hfile area htime, ?_⟩
  intro area time key hstored
  have hvalid : (m.storedObject area table file time).Valid :=
    hm.valid_storedObject htable hfile hstored.isSigned64
  obtain rfl := hstored.key_eq hm htable hfile
  refine ⟨fun area' time' key' hstored' => ?_, _, hm'.dataDirectory_eq htable', ?_⟩
  · obtain rfl := hstored'.key_eq hm' htable' hfile'
    rw [hvalid.text_inj (hm'.valid_storedObject htable' hfile' hstored'.isSigned64)]
    simp only [storedObject, objectIn, ObjectKey.lower, ObjectKey.mk.injEq]
    tauto
  · exact hm'.directory_prefix_iff htable' hvalid

/-- Names may be called like areas: a table's directory holds its live columnar objects, in any
letters, but not what has been archived of them. -/
theorem stores_apart_among_areas :
    ∃ key archivedKey directory,
      (Model.mk "Data" "archive").Stores .data "data" "input" none key ∧
      (Model.mk "Data" "archive").Stores .data "data" "input" (some 7) archivedKey ∧
      key ≠ archivedKey ∧
      (Model.mk "data" "Archive").dataDirectory "DATA" = .ok directory ∧
      directory.toList <+: key.toList ∧ ¬ directory.toList <+: archivedKey.toList := by
  have hm : (Model.mk "Data" "archive").Proper := ⟨by decide, by decide⟩
  have hm' : (Model.mk "data" "Archive").Proper := ⟨by decide, by decide⟩
  have hdata : isSegment "data" = true := by decide
  have hinput : isSegment "input" = true := by decide
  have hcapitals : isSegment "DATA" = true := by decide
  obtain ⟨hexists, hapart⟩ := stores_apart hm hm' hdata hinput hcapitals hinput
  obtain ⟨key, hlive⟩ := hexists .data none (by decide)
  obtain ⟨archivedKey, harchived⟩ := hexists .data (some 7) (by decide)
  obtain ⟨-, directory, hdirectory, hholds⟩ := hapart .data none key hlive
  obtain ⟨-, directory', hdirectory', hholds'⟩ := hapart .data (some 7) archivedKey harchived
  obtain rfl := Except.ok.inj (hdirectory.symm.trans hdirectory')
  have hin := hholds.2 (by decide)
  have hout : ¬ directory.toList <+: archivedKey.toList := fun h => by
    cases (hholds'.1 h).2.1
  exact ⟨key, archivedKey, directory, hlive, harchived, fun heq => hout (heq ▸ hin), hdirectory,
    hin, hout⟩

end Model

end TabularView
