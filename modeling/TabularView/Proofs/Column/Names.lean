import TabularView.Column.Name
import TabularView.Proofs.Text.Fresh

set_option autoImplicit false

/-! # Names that columns get

Whatever the headers of a file are, its columns get names that every storage system accepts
(`isValid_of_mem_normalizeHeaders`), no two the same (`nodup_normalizeHeaders`): a header of which
nothing is left is numbered, and a number behind a name consists of digits.

Each header gets the name it asks for, or that name with the smallest number that no earlier column
has (`names_normalizeHeaders`). Valid names are asked for as they are
(`preferredAll_of_forall_isValid`), so that the names of one file would be the names of another one
that had them as headers. -/

namespace TabularView.ColumnName

/-- A name of at least one letter, digit or underscore, and of nothing else. -/
structure IsValid (name : String) : Prop where
  ne_empty : name ≠ ""
  plain : ∀ c ∈ name.toList, isPlain c = true

theorem isPlain_of_mem_toString {n : Nat} {c : Char} (h : c ∈ (toString n).toList) :
    isPlain c = true := by
  rw [Nat.toString_eq_ofList_toDigits, String.toList_ofList] at h
  have hdigit := Nat.isDigit_of_mem_toDigits (by decide) (by decide) h
  simp only [Char.isDigit, Bool.and_eq_true, decide_eq_true_eq] at hdigit
  have hrange : ('0' ≤ c && c ≤ '9') = true := by
    simp only [Bool.and_eq_true, decide_eq_true_eq]
    exact hdigit
  simp [isPlain, hrange]

/-- A valid name stays so with something behind it. -/
theorem IsValid.append {name rest : String} (h : IsValid name)
    (hrest : ∀ c ∈ rest.toList, isPlain c = true) : IsValid (name ++ rest) where
  ne_empty := fun hempty => h.ne_empty (String.append_eq_empty_iff.1 hempty).1
  plain := by
    intro c hc
    rw [String.toList_append] at hc
    exact (List.mem_append.1 hc).elim (h.plain c) (hrest c)

theorem IsValid.numbered {name : String} (h : IsValid name) (k : Nat) :
    IsValid (Text.numbered name k) :=
  (h.append (List.all_eq_true.1 rfl)).append fun _ hc => isPlain_of_mem_toString hc

theorem isValid_preferred (header : String) (index : Nat) : IsValid (preferred header index) := by
  unfold preferred
  dsimp only
  split
  · have hfield : IsValid "field_" := ⟨by decide, List.all_eq_true.1 rfl⟩
    exact hfield.append fun _ hc => isPlain_of_mem_toString hc
  · next hempty =>
      refine ⟨hempty, fun c hc => ?_⟩
      rw [normalize, String.toList_ofList] at hc
      exact isPlain_of_mem_normalizeChars hc

theorem isValid_of_mem_normalizeHeaders {headers : List String} {name : String}
    (h : name ∈ normalizeHeaders headers) : IsValid name := by
  have hasked : ∀ asked ∈ preferredAll headers, IsValid asked := by
    intro asked hmem
    obtain ⟨header, -, rfl⟩ := List.mem_map.1 hmem
    exact isValid_preferred _ _
  exact Text.forall_mem_freshen (fun _ k hname => hname.numbered k) hasked [] name h

theorem nodup_normalizeHeaders (headers : List String) : (normalizeHeaders headers).Nodup :=
  Text.nodup_freshen _ _

/-! ## Header rows -/

theorem getElem?_preferredAll (headers : List String) (i : Nat) :
    (preferredAll headers)[i]? = headers[i]?.map (preferred · i) := by
  simp [preferredAll, Option.map_map, Function.comp_def]

theorem normalize_of_isValid {name : String} (h : IsValid name) : normalize name = name := by
  rw [normalize, normalizeChars_of_isPlain h.plain, String.ofList_toList]

theorem preferred_of_isValid {name : String} (h : IsValid name) (index : Nat) :
    preferred name index = name := by
  rw [preferred, normalize_of_isValid h]
  exact if_neg h.ne_empty

/-- Valid names ask for themselves, wherever they stand. -/
theorem preferredAll_of_forall_isValid {names : List String} (h : ∀ name ∈ names, IsValid name) :
    preferredAll names = names := by
  apply List.ext_getElem?
  intro i
  rw [getElem?_preferredAll]
  cases hname : names[i]? with
  | none => rfl
  | some name => exact congrArg some (preferred_of_isValid (h name (List.mem_of_getElem? hname)) i)

theorem normalizeHeaders_normalizeHeaders (headers : List String) :
    normalizeHeaders (normalizeHeaders headers) = normalizeHeaders headers := by
  have hvalid : ∀ name ∈ normalizeHeaders headers, IsValid name :=
    fun _ hname => isValid_of_mem_normalizeHeaders hname
  calc normalizeHeaders (normalizeHeaders headers)
      = Text.freshen [] (preferredAll (normalizeHeaders headers)) := rfl
    _ = Text.freshen [] (normalizeHeaders headers) := by
      rw [preferredAll_of_forall_isValid hvalid]
    _ = normalizeHeaders headers := Text.freshen_eq_self (nodup_normalizeHeaders headers)

/-- The name that a header asks for: what is left of it, or its position counted from one if nothing
is left. -/
structure Asks (header : String) (index : Nat) (asked : String) : Prop where
  eq_normalize : normalize header ≠ "" → asked = normalize header
  eq_field : normalize header = "" → asked = "field_" ++ toString (index + 1)

theorem asks_preferred (header : String) (index : Nat) :
    Asks header index (preferred header index) where
  eq_normalize h := if_neg h
  eq_field h := if_pos h

/-- A column is named after its header and the columns before it: by the name asked for if none of
them has it, or else by that name with the smallest number that none of them has. The search for the
number is over after as many tries as there are columns before it. -/
structure IsNamed (before : List String) (header : String) (index : Nat) (name : String) :
    Prop where
  exists_asked : ∃ asked, Asks header index asked ∧ (asked ∉ before → name = asked) ∧
    (asked ∈ before → ∃ k, 1 ≤ k ∧ k ≤ before.length ∧ name = Text.numbered asked k ∧
      ∀ m, 1 ≤ m → m < k → Text.numbered asked m ∈ before)
  not_mem : name ∉ before

/-- The names that the columns under a header row get. -/
structure Names (headers names : List String) : Prop where
  length_eq : names.length = headers.length
  isValid : ∀ name ∈ names, IsValid name
  nodup : names.Nodup
  isNamed : ∀ i header name, headers[i]? = some header → names[i]? = some name →
    IsNamed (names.take i) header i name
  stable : normalizeHeaders names = names

/-- A header row gets names of letters, digits and underscores that are all different, each made
from its header, and normalizing the names changes nothing. -/
theorem names_normalizeHeaders (headers : List String) :
    Names headers (normalizeHeaders headers) := by
  refine ⟨length_normalizeHeaders headers, fun _ hname => isValid_of_mem_normalizeHeaders hname,
    nodup_normalizeHeaders headers, ?_, normalizeHeaders_normalizeHeaders headers⟩
  intro i header name hheader hname
  have hasked : (preferredAll headers)[i]? = some (preferred header i) := by
    rw [getElem?_preferredAll, hheader]
    rfl
  have hfresh : Text.IsFresh ((normalizeHeaders headers).take i) (preferred header i) name :=
    Text.isFresh_freshen hasked hname
  exact ⟨⟨_, asks_preferred header i, hfresh.eq_asked, hfresh.exists_numbered⟩, hfresh.not_mem⟩

/-- Numbers avoid names that stand further left, whether these were numbered or not. -/
example : normalizeHeaders ["name", "name_1", "###", "name!", "field_3", "field_3_1"] =
    ["name", "name_1", "field_3", "name_2", "field_3_1", "field_3_1_1"] := by
  decide +kernel

end TabularView.ColumnName
