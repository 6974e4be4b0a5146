import Mathlib.Data.List.Nodup
import TabularView.Storage.Segment

set_option autoImplicit false

/-! # Names in the engine

All names of a model start with its stem, `workspace_model_`, and the view is called as a table
`view` would be (`Model.viewName_eq`). Within a model, names are the same exactly if what follows
the stem is the same in small letters (`Model.nodup_map_tableName_iff`).

Between models this does not settle it, as an underscore may also stand inside an id: the stem of
one model may continue the stem of another. Then the other can have a table that is called like any
table of the first (`Model.Covers.exists_tableName_eq`), and this is the only way in which two
models come to have a name in common (`Model.covers_or_covers`). It takes an underscore in an id
(`Model.Covers.lowerAscii_eq`). -/

namespace TabularView

/-! ## Small letters -/

namespace Text

/-- The text has no ASCII capitals. -/
def IsSmall (s : String) : Prop :=
  lowerAscii s = s

theorem isSmall_lowerAscii (s : String) : IsSmall (lowerAscii s) := by
  have htwice : ∀ c : Char, c.toLower.toLower = c.toLower := by
    intro c
    unfold Char.toLower
    grind
  unfold IsSmall
  apply String.toList_inj.mp
  rw [toList_lowerAscii, toList_lowerAscii, List.map_map]
  exact List.map_congr_left fun c _ => htwice c

/-- Only letters become letters. -/
theorem toLower_eq_iff {c d : Char} (h : d.isAlpha = false) : c.toLower = d ↔ c = d := by
  obtain ⟨hupper, hlower⟩ := Bool.or_eq_false_iff.1 h
  have hnotUpper : ¬ ('A'.val ≤ d.val ∧ d.val ≤ 'Z'.val) := of_decide_eq_false hupper
  have hnotLower : ¬ ('a'.val ≤ d.val ∧ d.val ≤ 'z'.val) := by
    rintro ⟨hfrom, hto⟩
    have htrue : d.isLower = true :=
      Bool.and_eq_true_iff.2 ⟨decide_eq_true hfrom, decide_eq_true hto⟩
    rw [htrue] at hlower
    cases hlower
  unfold Char.toLower
  split
  · rw [Char.ext_iff, Char.ext_iff]
    grind
  · rfl

theorem mem_lowerAscii_iff {d : Char} (h : d.isAlpha = false) (s : String) :
    d ∈ (lowerAscii s).toList ↔ d ∈ s.toList := by
  simp [toList_lowerAscii, toLower_eq_iff h]

theorem underscore_mem_lowerAscii_iff (s : String) :
    '_' ∈ (lowerAscii s).toList ↔ '_' ∈ s.toList :=
  mem_lowerAscii_iff (by decide) s

end Text

/-! ## Segments -/

theorem isSegment_iff (value : String) :
    isSegment value = true ↔ value.toList ≠ [] ∧ value.toList ≠ ['.'] ∧
      value.toList ≠ ['.', '.'] ∧ '/' ∉ value.toList := by
  have hempty : value ≠ "" ↔ value.toList ≠ [] := not_congr String.toList_inj.symm
  have hdot : value ≠ "." ↔ value.toList ≠ ['.'] := not_congr String.toList_inj.symm
  have hdots : value ≠ ".." ↔ value.toList ≠ ['.', '.'] := not_congr String.toList_inj.symm
  rw [← hempty, ← hdot, ← hdots]
  simp [isSegment, Text.hasChar, and_assoc]

/-- A segment stays one with more in front of it, as long as that has no slash. -/
theorem isSegment_append {front value : String} (hfront : '/' ∉ front.toList)
    (h : isSegment value = true) : isSegment (front ++ value) = true := by
  rw [isSegment_iff] at h ⊢
  obtain ⟨hempty, hdot, hdots, hslash⟩ := h
  rw [String.toList_append]
  refine ⟨by simp [hempty], ?_, ?_, by simp [hfront, hslash]⟩
  · intro heq
    rcases List.append_eq_singleton_iff.1 heq with ⟨_, hvalue⟩ | ⟨_, hvalue⟩
    · exact hdot hvalue
    · exact hempty hvalue
  · intro heq
    rcases List.append_eq_cons_iff.1 heq with ⟨_, hvalue⟩ | ⟨rest, _, hrest⟩
    · exact hdots hvalue
    · rcases List.append_eq_singleton_iff.1 hrest.symm with ⟨_, hvalue⟩ | ⟨_, hvalue⟩
      · exact hdot hvalue
      · exact hempty hvalue

namespace Model

variable {m m' : Model}

/-- Both ids can be part of a key. -/
structure Proper (m : Model) : Prop where
  workspace : isSegment m.workspace = true
  model : isSegment m.model = true

/-! ## Within a model -/

/-- The ids of a model as they stand in front of all its names. -/
def ids (m : Model) : String :=
  m.workspace ++ "_" ++ m.model ++ "_"

/-- What all names of a model start with. -/
def stem (m : Model) : String :=
  Text.lowerAscii m.ids

theorem tableName_eq (m : Model) (table : String) :
    m.tableName table = m.stem ++ Text.lowerAscii table :=
  Text.lowerAscii_append _ _

/-- The view has the name of a table `view`. -/
theorem viewName_eq (m : Model) : m.viewName = m.tableName "view" := by
  have hview : "_view" = "_" ++ "view" := rfl
  rw [viewName, hview, ← String.append_assoc]
  rfl

/-- Tables have different names in the engine exactly if their names differ in small letters. -/
theorem nodup_map_tableName_iff (m : Model) (tables : List String) :
    (tables.map m.tableName).Nodup ↔ (tables.map Text.lowerAscii).Nodup := by
  have hnames : tables.map m.tableName = (tables.map Text.lowerAscii).map (m.stem ++ ·) := by
    rw [List.map_map]
    exact List.map_congr_left fun table _ => m.tableName_eq table
  rw [hnames]
  exact List.nodup_map_iff fun a b hab => by simpa using hab

/-! ## Between models -/

/-- The names of the second model start like names of the first. -/
def Covers (m m' : Model) : Prop :=
  m.stem.toList <+: m'.stem.toList

instance (m m' : Model) : Decidable (m.Covers m') :=
  inferInstanceAs (Decidable (_ <+: _))

/-- Models with a name in common: one of them covers the other. -/
theorem covers_or_covers {rest rest' : String} (h : m.stem ++ rest = m'.stem ++ rest') :
    m.Covers m' ∨ m'.Covers m := by
  have hlist := congrArg String.toList h
  rw [String.toList_append, String.toList_append] at hlist
  have hleft : m.stem.toList <+: m.stem.toList ++ rest.toList := List.prefix_append _ _
  have hright : m'.stem.toList <+: m.stem.toList ++ rest.toList := by
    rw [hlist]
    exact List.prefix_append _ _
  exact List.prefix_or_prefix_of_prefix hleft hright

theorem Proper.slash_not_mem_ids (h : m.Proper) : '/' ∉ m.ids.toList := by
  obtain ⟨_, _, _, hworkspace⟩ := (isSegment_iff _).1 h.workspace
  obtain ⟨_, _, _, hmodel⟩ := (isSegment_iff _).1 h.model
  simp [ids, String.toList_append, hworkspace, hmodel]

/-- A model can have a table that is called like any table of a model it covers. -/
theorem Covers.exists_tableName_eq (h : m.Covers m') (hproper : m'.Proper) (table : String)
    (htable : isSegment table = true) :
    ∃ other, isSegment other = true ∧ m.tableName other = m'.tableName table := by
  -- the other table starts with what the stem of the covered model has beyond the first stem
  let beyond : String := String.ofList (m'.ids.toList.drop m.ids.toList.length)
  have hslash : '/' ∉ beyond.toList := by
    rw [String.toList_ofList]
    exact fun hmem => hproper.slash_not_mem_ids (List.mem_of_mem_drop hmem)
  have hstem : m.stem ++ Text.lowerAscii beyond = m'.stem := by
    apply String.toList_inj.mp
    obtain ⟨rest, hrest⟩ := h
    rw [String.toList_append, Text.toList_lowerAscii beyond, String.toList_ofList, List.map_drop,
      ← Text.toList_lowerAscii m'.ids, ← stem, ← hrest]
    simp [stem, Text.toList_lowerAscii]
  refine ⟨beyond ++ table, isSegment_append hslash htable, ?_⟩
  rw [tableName_eq, tableName_eq, Text.lowerAscii_append, ← String.append_assoc, hstem]

end Model

/-! ## Ids without underscores -/

theorem eq_of_concat_prefix_concat {α : Type} {c : α} {a b : List α} (hb : c ∉ b)
    (h : a ++ [c] <+: b ++ [c]) : a = b := by
  rcases List.prefix_concat_iff.1 h with heq | hwithin
  · exact List.append_cancel_right heq
  · exact absurd (hwithin.subset (by simp)) hb

/-- What a list has in front of the first separator is determined by the list. -/
theorem eq_of_concat_prefix {α : Type} {c : α} {a b l : List α} (ha : c ∉ a) (hb : c ∉ b)
    (hal : a ++ [c] <+: l) (hbl : b ++ [c] <+: l) : a = b := by
  rcases List.prefix_or_prefix_of_prefix hal hbl with h | h
  · exact eq_of_concat_prefix_concat hb h
  · exact (eq_of_concat_prefix_concat ha h).symm

namespace Model

variable {m m' : Model}

/-- Neither id of a model has an underscore. -/
structure WithoutUnderscores (m : Model) : Prop where
  workspace : '_' ∉ m.workspace.toList
  model : '_' ∉ m.model.toList

theorem toList_stem (m : Model) :
    m.stem.toList = (Text.lowerAscii m.workspace).toList ++ ['_'] ++
      ((Text.lowerAscii m.model).toList ++ ['_']) := by
  simp [stem, ids, Text.toList_lowerAscii]

/-- Among models without underscores in their ids, one covers only those with its own ids in small
letters. -/
theorem Covers.lowerAscii_eq (h : m.Covers m') (hm : m.WithoutUnderscores)
    (hm' : m'.WithoutUnderscores) :
    Text.lowerAscii m.workspace = Text.lowerAscii m'.workspace ∧
      Text.lowerAscii m.model = Text.lowerAscii m'.model := by
  have hnone : ∀ {s : String}, '_' ∉ s.toList → '_' ∉ (Text.lowerAscii s).toList :=
    fun {s} hs => mt (Text.underscore_mem_lowerAscii_iff s).1 hs
  rw [Covers, toList_stem, toList_stem] at h
  have hworkspace : (Text.lowerAscii m.workspace).toList = (Text.lowerAscii m'.workspace).toList :=
    eq_of_concat_prefix (hnone hm.workspace) (hnone hm'.workspace)
      ((List.prefix_append _ _).trans h) (List.prefix_append _ _)
  rw [hworkspace, List.prefix_append_right_inj] at h
  have hmodel := eq_of_concat_prefix_concat (hnone hm'.model) h
  exact ⟨String.toList_inj.mp hworkspace, String.toList_inj.mp hmodel⟩

end Model

end TabularView
