import TabularView.Json.Fields
import TabularView.Proofs.Json.Text

set_option autoImplicit false

/-! # Records are read back

A record is written field by field and read by the names of its fields. `ReadsBack` says of a value
that it is read as it was written and that the text of what is written is exact. It holds of texts,
counts, flags and names of choices, and passes on to lists, to values that may be null and to the
fields of a record (`field?_eq`, `option?_eq`, `option?_eq_of_toList`). -/

namespace TabularView.Json

variable {α : Type} {write : α → Json} {read? : Json → Option α}

/-- The value is read as it was written, and so is its text. -/
structure ReadsBack (write : α → Json) (read? : Json → Option α) (a : α) : Prop where
  exact : Exact (write a)
  read : read? (write a) = some a

/-! ## Values -/

theorem readsBack_string (s : String) : ReadsBack .string text? s :=
  ⟨.string s, rfl⟩

theorem readsBack_bool (b : Bool) : ReadsBack .bool flag? b :=
  ⟨.bool b, rfl⟩

/-- A count below `2 ^ 64` is read back. -/
theorem readsBack_ofNat {n : Nat} (h : n < 2 ^ 64) : ReadsBack ofNat count? n := by
  have hfits : isUnsigned64 n = true := by
    simp only [isUnsigned64, Bool.and_eq_true, decide_eq_true_eq]
    omega
  exact ⟨.number (.inl hfits), by simp [count?, whole?, ofNat, hfits]⟩

theorem readsBack_string_of_mem (o : Option String) : ∀ s ∈ o, ReadsBack .string text? s :=
  fun s _ => readsBack_string s

theorem readsBack_ofNat_of_mem {o : Option Nat} (h : ∀ n ∈ o, n < 2 ^ 64) :
    ∀ n ∈ o, ReadsBack ofNat count? n :=
  fun n hn => readsBack_ofNat (h n hn)

/-- A choice is read back by its name. -/
theorem readsBack_choice {name : α → String} {ofName? : String → Option α} {a : α}
    (h : ofName? (name a) = some a) :
    ReadsBack (fun a => .string (name a)) (choice? ofName?) a :=
  ⟨.string _, h⟩

theorem readsBack_array {l : List α} (h : ∀ a ∈ l, ReadsBack write read? a) :
    ReadsBack (fun l => .array (l.map write)) (list? read?) l where
  exact := .array fun j hj => by
    obtain ⟨a, ha, rfl⟩ := List.mem_map.1 hj
    exact (h a ha).exact
  read := by
    change (l.map write).mapM read? = some l
    induction l with
    | nil => rfl
    | cons a rest ih =>
        obtain ⟨ha, hrest⟩ := List.forall_mem_cons.1 h
        rw [List.map_cons, List.mapM_cons, ha.read, ih hrest]
        rfl

/-- A value that may be null is read back if no value is written as null. -/
theorem readsBack_ofOption {o : Option α} (h : ∀ a ∈ o, ReadsBack write read? a)
    (hnull : read? .null = none) : ReadsBack (ofOption write) (nullable? read?) o := by
  cases o with
  | none => exact ⟨.null, rfl⟩
  | some a =>
      obtain ⟨hexact, hread⟩ := h a rfl
      refine ⟨hexact, ?_⟩
      change nullable? read? (write a) = some (some a)
      unfold nullable?
      split
      · rename_i heq
        rw [heq, hnull] at hread
        cases hread
      · rw [hread]
        rfl

/-! ## Fields -/

variable {name : String} {fields : List (String × Json)}

/-- A field that is there once is read back. -/
theorem field?_eq {a : α} (h : ReadsBack write read? a)
    (hvalues : valuesOf name fields = [write a]) :
    field? name read? fields = some a := by
  rw [field?, hvalues]
  exact h.read

theorem option?_eq {o : Option α} (h : ∀ a ∈ o, ReadsBack write read? a)
    (hnull : read? .null = none) (hvalues : valuesOf name fields = [ofOption write o]) :
    option? name read? fields = some o := by
  rw [option?, hvalues]
  exact (readsBack_ofOption h hnull).read

/-- A field that is left out without a value is read back. -/
theorem option?_eq_of_toList {o : Option α} (h : ∀ a ∈ o, ReadsBack write read? a)
    (hnull : read? .null = none) (hvalues : valuesOf name fields = (o.map write).toList) :
    option? name read? fields = some o := by
  cases o with
  | none => rw [option?, hvalues]; rfl
  | some a =>
      exact option?_eq h hnull hvalues

@[simp]
theorem valuesOf_nil (name : String) : valuesOf name [] = [] := rfl

@[simp]
theorem valuesOf_cons (name : String) (field : String × Json) (fields : List (String × Json)) :
    valuesOf name (field :: fields) =
      if field.1 = name then field.2 :: valuesOf name fields else valuesOf name fields := by
  by_cases h : field.1 = name <;> simp [valuesOf, h]

@[simp]
theorem valuesOf_append (name : String) (fields more : List (String × Json)) :
    valuesOf name (fields ++ more) = valuesOf name fields ++ valuesOf name more := by
  simp [valuesOf]

@[simp]
theorem valuesOf_optionalField (name other : String) (o : Option α) :
    valuesOf name (optionalField other write o) =
      if other = name then (o.map write).toList else [] := by
  cases o with
  | none => exact (ite_self _).symm
  | some a => rw [optionalField, valuesOf_cons]; rfl

theorem exact_of_mem_optionalField {o : Option α} (h : ∀ a ∈ o, ReadsBack write read? a)
    {field : String × Json} (hfield : field ∈ optionalField name write o) : Exact field.2 := by
  cases o with
  | none => cases hfield
  | some a =>
      rw [List.mem_singleton.1 hfield]
      exact (h a rfl).exact

end TabularView.Json
