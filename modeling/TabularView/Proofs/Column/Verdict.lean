import Mathlib.Data.List.Perm.Basic
import TabularView.Proofs.Column.Inference

set_option autoImplicit false

/-! # What inference finds out

Judging a column on its values one after the other comes to the same as judging it on all of them
at once (`ColumnInference.infers_from_all_values`): the order of the values does not matter, and
each checker rejects one value at most. Further values do not lead away from texts, unless a checker
of the chain has the values so far for texts and not the further ones. -/

namespace TabularView

/-! ## Widths -/

/-- The width of the widest value is no less than any other, and that of one of them. -/
theorem foldl_max_units16_spec (raws : List String) (m : Nat) :
    let width := raws.foldl (fun width raw => max width (Text.units16 raw)) m
    m ≤ width ∧ (∀ raw ∈ raws, Text.units16 raw ≤ width) ∧
      (width = m ∨ ∃ raw ∈ raws, Text.units16 raw = width) := by
  induction raws generalizing m with
  | nil => exact ⟨Nat.le_refl m, List.forall_mem_nil _, .inl rfl⟩
  | cons raw rest ih =>
      obtain ⟨hstart, hrest, hattained⟩ := ih (max m (Text.units16 raw))
      rw [List.foldl_cons]
      dsimp only
      generalize rest.foldl _ (max m (Text.units16 raw)) = width at *
      obtain ⟨hm, hraw⟩ := Nat.max_le.1 hstart
      refine ⟨hm, List.forall_mem_cons.2 ⟨hraw, hrest⟩, ?_⟩
      rcases hattained with rfl | ⟨longest, hmem, hwidth⟩
      · rcases Nat.le_total m (Text.units16 raw) with hle | hle
        · exact .inr ⟨raw, List.mem_cons_self .., (Nat.max_eq_right hle).symm⟩
        · exact .inl (Nat.max_eq_left hle)
      · exact .inr ⟨longest, List.mem_cons_of_mem _ hmem, hwidth⟩

/-- The width of the values is the greatest of theirs. -/
def IsWidest (raws : List String) (width : Nat) : Prop :=
  (∃ raw ∈ nonBlank raws, Text.units16 raw = width) ∧
    ∀ raw ∈ nonBlank raws, Text.units16 raw ≤ width

theorem isWidest_iff {raws : List String} (h : nonBlank raws ≠ []) {width : Nat} :
    IsWidest raws width ↔ widest raws = width := by
  obtain ⟨-, hle, hattained⟩ := foldl_max_units16_spec (nonBlank raws) 0
  change ∀ raw ∈ nonBlank raws, Text.units16 raw ≤ widest raws at hle
  change widest raws = 0 ∨ ∃ raw ∈ nonBlank raws, Text.units16 raw = widest raws at hattained
  have hmem : ∃ raw ∈ nonBlank raws, Text.units16 raw = widest raws := by
    rcases hattained with hzero | hmem
    · obtain ⟨raw, rest, hraws⟩ := List.exists_cons_of_ne_nil h
      have hraw : raw ∈ nonBlank raws := hraws ▸ List.mem_cons_self ..
      exact ⟨raw, hraw, Nat.le_antisymm (hle raw hraw) (hzero ▸ Nat.zero_le (Text.units16 raw))⟩
    · exact hmem
  constructor
  · rintro ⟨⟨raw, hraw, rfl⟩, hgreatest⟩
    obtain ⟨longest, hlongest, hwidth⟩ := hmem
    exact Nat.le_antisymm (hwidth ▸ hgreatest longest hlongest) (hle raw hraw)
  · rintro rfl
    exact ⟨hmem, hle⟩

/-! ## Orders of values -/

section Perm

variable {raws raws' : List String} (h : raws.Perm raws')

include h

theorem nonBlank_perm : (nonBlank raws).Perm (nonBlank raws') :=
  h.filter _

theorem acceptsAll_perm (c : Checker) : c.acceptsAll raws = c.acceptsAll raws' :=
  (nonBlank_perm h).all_eq

theorem widest_perm : widest raws = widest raws' := by
  refine (nonBlank_perm h).foldl_eq' (fun raw _ raw' _ width => ?_) 0
  rw [Nat.max_assoc, Nat.max_assoc, Nat.max_comm (Text.units16 raw)]

end Perm

/-! ## Rejections -/

/-- The reason that a rejection gives for a failure. -/
def Failure.reason : Failure → String
  | .invalidValue _ fault => fault.text
  | f => f.message

/-- A checker rejects a value after others: it has accepted those, and this one, which is not blank,
looks right to it but does not convert. -/
structure Checker.Rejects (c : Checker) (seen : List String) (raw : String) (r : Rejection) :
    Prop where
  nonBlank : Text.trim raw ≠ ""
  accepted : c.acceptsAll seen = true
  looksRight : c.looksRight (Text.trim raw) = true
  convert : ∃ f, c.convert (Text.trim raw) = .error f ∧
    r = { fieldType := c.fieldType, message := f.reason }

theorem Candidate.observe_eq_some_iff {c : Candidate} {value : String} {r : Rejection} :
    (c.observe value).2 = some r ↔
      c.possible = true ∧ c.checker.looksRight value = true ∧
        ∃ f, c.checker.convert value = .error f ∧
          r = { fieldType := c.checker.fieldType, message := f.reason } := by
  obtain ⟨checker, possible⟩ := c
  unfold observe
  cases possible with
  | false => simp
  | true =>
      cases checker.looksRight value with
      | false => simp
      | true =>
          cases checker.convert value with
          | ok v => simp
          | error f => cases f <;> simp [Failure.reason, eq_comm]

namespace ColumnInference

theorem observeAll_rejection (value : String) (candidates : List Candidate) :
    (observeAll value candidates).2 = candidates.findSome? fun c => (c.observe value).2 := by
  induction candidates with
  | nil => rfl
  | cons c rest ih =>
      rw [List.findSome?_cons, observeAll]
      dsimp only
      rw [ih]
      cases (c.observe value).2 <;> rfl

/-- What is reported of a value is the rejection of the first checker of the chain that rejects
it. -/
theorem observe_rejection_iff {chain : List Checker} {seen : List String} {raw : String}
    {r : Rejection} :
    (((start chain).observeList seen).observe raw).2 = some r ↔
      ∃ before c after, chain = before ++ c :: after ∧ c.Rejects seen raw r ∧
        ∀ c' ∈ before, ∀ r', ¬ c'.Rejects seen raw r' := by
  have hcandidates : ((start chain).observeList seen).candidates =
      chain.map fun c => ⟨c, c.acceptsAll seen⟩ := by
    rw [observeList_eq, start]
    simp [Candidate.keepIf]
  have hrejects : Text.trim raw ≠ "" → ∀ (c : Checker) (r : Rejection),
      (Candidate.observe ⟨c, c.acceptsAll seen⟩ (Text.trim raw)).2 = some r ↔
        c.Rejects seen raw r := by
    intro hraw c r
    rw [Candidate.observe_eq_some_iff]
    constructor
    · rintro ⟨haccepted, hlooks, hconvert⟩
      exact ⟨hraw, haccepted, hlooks, hconvert⟩
    · rintro ⟨-, haccepted, hlooks, hconvert⟩
      exact ⟨haccepted, hlooks, hconvert⟩
  rw [observe]
  dsimp only
  split
  · next hblank =>
      constructor
      · rintro ⟨⟩
      · rintro ⟨-, c, -, -, h, -⟩
        exact absurd hblank h.nonBlank
  · next hraw =>
      have hfirst : ∀ c : Checker,
          (Candidate.observe ⟨c, c.acceptsAll seen⟩ (Text.trim raw)).2 = none ↔
            ∀ r, ¬ c.Rejects seen raw r := by
        intro c
        rw [Option.eq_none_iff_forall_ne_some]
        exact forall_congr' fun r => not_congr (hrejects hraw c r)
      show (observeAll (Text.trim raw) _).2 = some r ↔ _
      rw [observeAll_rejection, hcandidates, List.findSome?_map, List.findSome?_eq_some_iff]
      simp only [Function.comp_apply, hrejects hraw, hfirst]

end ColumnInference

/-- A checker that rejects a value rejects none of the values that follow. -/
theorem Checker.Rejects.not_later {c : Checker} {seen : List String} {raw : String} {r : Rejection}
    (h : c.Rejects seen raw r) (more : List String) (raw' : String) (r' : Rejection) :
    ¬ c.Rejects (seen ++ raw :: more) raw' r' := by
  intro hlater
  obtain ⟨f, hf, -⟩ := h.convert
  have hmem : raw ∈ TabularView.nonBlank (seen ++ raw :: more) :=
    mem_nonBlank.2 ⟨by simp, h.nonBlank⟩
  have haccepts := List.all_eq_true.1 hlater.accepted raw hmem
  rw [accepts, hf] at haccepts
  simp [Except.isOk, Except.toBool] at haccepts

/-! ## Texts -/

/-- A checker that gives the type goes on giving it while it accepts further values. -/
theorem find?_acceptsAll_append {chain : List Checker} {raws more : List String} {c : Checker}
    (h : chain.find? (·.acceptsAll raws) = some c) (hmore : c.acceptsAll more = true) :
    chain.find? (·.acceptsAll (raws ++ more)) = some c := by
  obtain ⟨hc, before, after, rfl, hbefore⟩ := List.find?_eq_some_iff_append.1 h
  refine List.find?_eq_some_iff_append.2 ⟨?_, before, after, rfl, fun c' hc' => ?_⟩
  · rw [Checker.acceptsAll_append, hc, hmore]
    rfl
  · have hnot := hbefore c' hc'
    simp only [Checker.acceptsAll_append, Bool.not_eq_true', Bool.and_eq_false_iff] at hnot ⊢
    exact .inl hnot

namespace ColumnInference

/-- After further values a column of texts is one still, or it is one because a checker for texts
accepted the values so far, and this checker has not accepted the further ones. -/
theorem fieldType_append_of_string {chain : List Checker} {raws more : List String}
    (h : ((start chain).observeList raws).fieldType = .string) :
    ((start chain).observeList (raws ++ more)).fieldType = .string ∨
      ∃ c ∈ chain, c.fieldType = .string ∧ c.acceptsAll raws = true ∧
        c.acceptsAll more = false := by
  rw [fieldType_start] at h ⊢
  split at h
  · cases h
  next hraws =>
  have hboth : nonBlank (raws ++ more) ≠ [] := by
    rw [nonBlank_append]
    exact List.append_ne_nil_of_left_ne_nil hraws _
  rw [if_neg hboth]
  cases hfound : chain.find? (·.acceptsAll raws) with
  | none =>
      have hnone : chain.find? (·.acceptsAll (raws ++ more)) = none := by
        rw [List.find?_eq_none] at hfound ⊢
        intro c hc haccepts
        rw [Checker.acceptsAll_append, Bool.and_eq_true] at haccepts
        exact hfound c hc haccepts.1
      rw [hnone]
      exact .inl rfl
  | some c =>
      rw [hfound] at h
      cases hmore : c.acceptsAll more with
      | true =>
          rw [find?_acceptsAll_append hfound hmore]
          exact .inl h
      | false =>
          have haccepted : c.acceptsAll raws = true := (List.find?_eq_some_iff_append.1 hfound).1
          exact .inr ⟨c, List.mem_of_find?_eq_some hfound, h, haccepted, hmore⟩

/-! ## All values at once -/

theorem finish_perm (chain : List Checker) {raws raws' : List String} (h : raws.Perm raws')
    (name originalName : String) :
    ((start chain).observeList raws).finish name originalName =
      ((start chain).observeList raws').finish name originalName := by
  have hblank : nonBlank raws = [] ↔ nonBlank raws' = [] :=
    ⟨fun hnil => (hnil ▸ nonBlank_perm h).nil_eq.symm,
      fun hnil => (hnil ▸ nonBlank_perm h).eq_nil⟩
  have htype : ((start chain).observeList raws).fieldType =
      ((start chain).observeList raws').fieldType := by
    simp only [fieldType_start, hblank, acceptsAll_perm h]
  rw [finish_start, finish_start, htype, widest_perm h]

/-- A width is given exactly for texts, and it is that of the widest value. -/
theorem longestString_iff (chain : List Checker) (raws : List String) (name originalName : String)
    (width : Nat) :
    (((start chain).observeList raws).finish name originalName).longestString = some width ↔
      ((start chain).observeList raws).fieldType = .string ∧ IsWidest raws width := by
  rw [finish_start]
  dsimp only
  split
  · next hstring =>
      have hraws : nonBlank raws ≠ [] := by
        intro hnil
        rw [fieldType_start, if_pos hnil] at hstring
        cases hstring
      simp [isWidest_iff hraws, hstring]
  · next hother => simp [hother]

/-- Values observed one after the other give a column the type that all of them together have: that
of the first checker of the chain that accepts all values that are not blank, else texts; it is
unknown if all values are blank. Texts, and they only, come with the width of the widest value.

The column is the same for all orders of the values. Further values never make it one of another
type than texts if no checker of the chain is for texts, and else only where such a checker stops
accepting them. What is reported of a value is the rejection of the first checker that rejects it,
and no checker rejects two values. -/
theorem infers_from_all_values (chain : List Checker) (raws : List String)
    (name originalName : String) :
    ((start chain).observeList raws).fieldType =
      (if nonBlank raws = [] then .unknown
      else ((chain.find? (·.acceptsAll raws)).map (·.fieldType)).getD .string) ∧
    (((start chain).observeList raws).finish name originalName).fieldType =
      ((start chain).observeList raws).fieldType ∧
    ((((start chain).observeList raws).finish name originalName).longestString.isSome ↔
      ((start chain).observeList raws).fieldType = .string) ∧
    (∀ width, (((start chain).observeList raws).finish name originalName).longestString =
      some width → IsWidest raws width) ∧
    (∀ raws', raws.Perm raws' →
      ((start chain).observeList raws').finish name originalName =
        ((start chain).observeList raws).finish name originalName) ∧
    ((∀ c ∈ chain, c.fieldType ≠ .string) → ∀ more,
      ((start chain).observeList raws).fieldType = .string →
        ((start chain).observeList (raws ++ more)).fieldType = .string) ∧
    (∀ more, ((start chain).observeList raws).fieldType = .string →
      ((start chain).observeList (raws ++ more)).fieldType = .string ∨
        ∃ c ∈ chain, c.fieldType = .string ∧ c.acceptsAll raws = true ∧
          c.acceptsAll more = false) ∧
    (∀ seen raw more, raws = seen ++ raw :: more → ∀ r,
      (((start chain).observeList seen).observe raw).2 = some r ↔
        ∃ before c after, chain = before ++ c :: after ∧ c.Rejects seen raw r ∧
          ∀ c' ∈ before, ∀ r', ¬ c'.Rejects seen raw r') ∧
    ∀ (c : Checker) (seen : List String) (raw : String) (more : List String) (raw' : String)
      (r r' : Rejection),
      c.Rejects seen raw r → ¬ c.Rejects (seen ++ raw :: more) raw' r' := by
  refine ⟨fieldType_start chain raws, rfl, ?_, ?_, ?_, ?_, ?_, ?_, ?_⟩
  · rw [finish_start]
    dsimp only
    split <;> simp_all
  · exact fun width hwidth => ((longestString_iff ..).1 hwidth).2
  · exact fun raws' hperm => (finish_perm chain hperm name originalName).symm
  · intro hchain more hstring
    refine (fieldType_append_of_string hstring).resolve_right ?_
    rintro ⟨c, hc, htype, -⟩
    exact hchain c hc htype
  · exact fun more hstring => fieldType_append_of_string hstring
  · exact fun seen raw more _ r => observe_rejection_iff
  · exact fun c seen raw more raw' r r' hrejects => hrejects.not_later more raw' r'

/-- Two dates and a number make a column of texts in any order and whatever follows. The first date
is rejected as there is no thirteenth month. -/
theorem infers_from_all_values_month :
    ((start Checker.chain).observeList ["7", " ", "2024-12-01", "2024-13-01"]).finish "day" "Day" =
      { name := "day", originalName := "Day", fieldType := .string, longestString := some 10 } ∧
    (∀ more, ((start Checker.chain).observeList
      (["2024-13-01", " ", "7", "2024-12-01"] ++ more)).fieldType = .string) ∧
    ∃ r, (((start Checker.chain).observeList []).observe "2024-13-01").2 = some r ∧
      ∀ raw r', ¬ Checker.date.Rejects ["2024-13-01", " ", "7", "2024-12-01"] raw r' := by
  have hfinish : ((start Checker.chain).observeList ["2024-13-01", " ", "7", "2024-12-01"]).finish
      "day" "Day" = {
        name := "day"
        originalName := "Day"
        fieldType := .string
        longestString := some 10 } := by
    decide
  have hchain : ∀ c ∈ Checker.chain, c.fieldType ≠ .string := by decide
  have hrejects : Checker.date.Rejects [] "2024-13-01"
      { fieldType := .date, message := "'2024-13-01' is not a valid date" } :=
    ⟨by decide, rfl, by decide, _, rfl, rfl⟩
  obtain ⟨-, -, -, -, hperm, hstays, -, hreported, honce⟩ := infers_from_all_values Checker.chain
    ["2024-13-01", " ", "7", "2024-12-01"] "day" "Day"
  refine ⟨(hperm _ (by decide)).trans hfinish, fun more => hstays hchain more (by decide), ?_⟩
  refine ⟨_, (hreported [] "2024-13-01" _ rfl _).2 ⟨[], Checker.date, [Checker.number], rfl,
    hrejects, List.forall_mem_nil _⟩, fun raw r' => ?_⟩
  exact honce Checker.date [] "2024-13-01" [" ", "7", "2024-12-01"] raw _ r' hrejects

end ColumnInference

/-- Recognises numbers that start with a zero and have to stay texts, as codes do. -/
def Checker.code : Checker where
  fieldType := .string
  looksRight value := value.toList.head? = some '0' && looksLikeNumber value
  convert := convertNumber

/-- With a checker for codes before that for numbers, a column of codes is one of texts until a
number follows that is no code. -/
theorem ColumnInference.fieldType_leaves_string :
    let s := start [Checker.code, Checker.number]
    (s.observeList ["007", "08"]).fieldType = .string ∧
      (s.observeList (["007", "08"] ++ ["9"])).fieldType = .number := by
  decide +kernel

end TabularView
