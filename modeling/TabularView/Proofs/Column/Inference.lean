import Mathlib.Data.List.Basic
import TabularView.Column.Inference

set_option autoImplicit false

/-! # What inference remembers

Observing values one after the other comes to this (`observeList_eq`): a candidate is still possible
if it was and accepts every value that is not blank, such values have been counted, and the width is
that of the widest. From the start of a chain the type is therefore a function of the values
(`fieldType_start`). -/

namespace TabularView

/-- The values that are not blank. -/
def nonBlank (raws : List String) : List String :=
  raws.filter fun raw => Text.trim raw ≠ ""

theorem mem_nonBlank {raws : List String} {raw : String} :
    raw ∈ nonBlank raws ↔ raw ∈ raws ∧ Text.trim raw ≠ "" := by
  simp [nonBlank]

theorem nonBlank_append (raws raws' : List String) :
    nonBlank (raws ++ raws') = nonBlank raws ++ nonBlank raws' :=
  List.filter_append ..

/-- The checker accepts every value that is not blank. -/
def Checker.acceptsAll (c : Checker) (raws : List String) : Bool :=
  (nonBlank raws).all fun raw => c.accepts (Text.trim raw)

theorem Checker.acceptsAll_append (c : Checker) (raws raws' : List String) :
    c.acceptsAll (raws ++ raws') = (c.acceptsAll raws && c.acceptsAll raws') := by
  rw [acceptsAll, nonBlank_append, List.all_append]
  rfl

/-- The width of the widest value that is not blank. -/
def widest (raws : List String) : Nat :=
  (nonBlank raws).foldl (fun width raw => max width (Text.units16 raw)) 0

theorem foldl_max_units16 (raws : List String) (m n : Nat) :
    raws.foldl (fun width raw => max width (Text.units16 raw)) (max m n) =
      max m (raws.foldl (fun width raw => max width (Text.units16 raw)) n) := by
  induction raws generalizing n with
  | nil => rfl
  | cons raw rest ih => rw [List.foldl_cons, List.foldl_cons, Nat.max_assoc, ih]

theorem widest_append (raws raws' : List String) :
    widest (raws ++ raws') = max (widest raws) (widest raws') := by
  rw [widest, nonBlank_append, List.foldl_append, ← Nat.max_zero (List.foldl _ 0 (nonBlank raws)),
    foldl_max_units16]
  rfl

/-! ## Candidates -/

/-- The candidate after values, given whether all of them were accepted. -/
def Candidate.keepIf (accepted : Bool) (c : Candidate) : Candidate :=
  { c with possible := c.possible && accepted }

theorem Candidate.observe_eq (c : Candidate) (value : String) :
    (c.observe value).1 = c.keepIf (c.checker.accepts value) := by
  obtain ⟨checker, possible⟩ := c
  cases possible with
  | false => rfl
  | true =>
      cases hl : checker.looksRight value with
      | false => simp [observe, keepIf, Checker.accepts, hl]
      | true =>
          cases hc : checker.convert value with
          | ok v => simp [observe, keepIf, Checker.accepts, hl, hc, Except.isOk, Except.toBool]
          | error f =>
              cases f <;>
                simp [observe, keepIf, Checker.accepts, hl, hc, Except.isOk, Except.toBool]

namespace ColumnInference

theorem observeAll_eq (value : String) (candidates : List Candidate) :
    (observeAll value candidates).1 =
      candidates.map fun c => c.keepIf (c.checker.accepts value) := by
  induction candidates with
  | nil => rfl
  | cons c rest ih => simp [observeAll, Candidate.observe_eq, ih]

/-! ## Values -/

theorem observe_of_blank {raw : String} (h : Text.trim raw = "") (s : ColumnInference) :
    (s.observe raw).1 = s := by
  rw [observe]
  dsimp only
  rw [if_pos h]

theorem observe_of_nonBlank {raw : String} (h : Text.trim raw ≠ "") (s : ColumnInference) :
    (s.observe raw).1 =
      { candidates := s.candidates.map fun c => c.keepIf (c.checker.accepts (Text.trim raw))
        nonEmpty := s.nonEmpty + 1
        longest := max s.longest (Text.units16 raw) } := by
  rw [observe]
  dsimp only
  rw [if_neg h, ← observeAll_eq]

theorem observeList_append (s : ColumnInference) (raws raws' : List String) :
    s.observeList (raws ++ raws') = (s.observeList raws).observeList raws' :=
  List.foldl_append ..

/-- What is known after values, from what was known before them. -/
theorem observeList_eq (s : ColumnInference) (raws : List String) :
    s.observeList raws =
      { candidates := s.candidates.map fun c => c.keepIf (c.checker.acceptsAll raws)
        nonEmpty := s.nonEmpty + (nonBlank raws).length
        longest :=
          (nonBlank raws).foldl (fun width raw => max width (Text.units16 raw)) s.longest } := by
  induction raws generalizing s with
  | nil => simp [observeList, nonBlank, Checker.acceptsAll, Candidate.keepIf]
  | cons raw rest ih =>
      have hstep : s.observeList (raw :: rest) = (s.observe raw).1.observeList rest := rfl
      rw [hstep, ih]
      by_cases h : Text.trim raw = ""
      · -- a blank value says nothing
        have hvalues : nonBlank (raw :: rest) = nonBlank rest := by simp [nonBlank, h]
        simp only [observe_of_blank h, Checker.acceptsAll, hvalues]
      · -- any other is tried on every candidate, counted and measured
        have hvalues : nonBlank (raw :: rest) = raw :: nonBlank rest := by simp [nonBlank, h]
        simp only [observe_of_nonBlank h, Checker.acceptsAll, hvalues, List.all_cons, List.map_map,
          List.foldl_cons, List.length_cons]
        congr 1
        · refine List.map_congr_left fun c _ => ?_
          simp [Candidate.keepIf, Bool.and_assoc]
        · omega

/-! ## From the start of a chain -/

/-- The first candidate left of a chain is its first checker that accepts all values. -/
theorem find?_possible (chain : List Checker) (raws : List String) :
    (chain.map fun c => Candidate.keepIf (c.acceptsAll raws) ⟨c, true⟩).find? (·.possible) =
      (chain.find? (·.acceptsAll raws)).map fun c => ⟨c, true⟩ := by
  induction chain with
  | nil => rfl
  | cons c rest ih =>
      rw [List.map_cons, List.find?_cons, List.find?_cons, ih]
      cases c.acceptsAll raws <;> simp [Candidate.keepIf]

/-- The first checker of a chain that accepts all values gives their type, if any of them is not
blank. -/
theorem fieldType_start (chain : List Checker) (raws : List String) :
    ((start chain).observeList raws).fieldType =
      if nonBlank raws = [] then .unknown
      else ((chain.find? (·.acceptsAll raws)).map (·.fieldType)).getD .string := by
  rw [observeList_eq, start, fieldType]
  simp only [List.map_map, Nat.zero_add, List.length_eq_zero_iff, Function.comp_def, find?_possible]
  split
  · rfl
  · cases chain.find? (·.acceptsAll raws) <;> rfl

theorem longest_start (chain : List Checker) (raws : List String) :
    ((start chain).observeList raws).longest = widest raws := by
  rw [observeList_eq]
  rfl

/-- The column that values lead to from the start of a chain. -/
theorem finish_start (chain : List Checker) (raws : List String) (name originalName : String) :
    ((start chain).observeList raws).finish name originalName =
      { name := name
        originalName := originalName
        fieldType := ((start chain).observeList raws).fieldType
        longestString :=
          if ((start chain).observeList raws).fieldType = .string then some (widest raws)
          else none } := by
  rw [finish, longest_start]

end ColumnInference

end TabularView
