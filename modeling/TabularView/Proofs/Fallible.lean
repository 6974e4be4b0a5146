import Mathlib.Data.List.Forall2

set_option autoImplicit false

/-! # Steps that may fail

A chain of steps succeeds when each of them does, and a list of them when all of them do. -/

namespace TabularView

variable {α β ε : Type}

theorem bind_eq_ok_iff {x : Except ε α} {f : α → Except ε β} {b : β} :
    x >>= f = .ok b ↔ ∃ a, x = .ok a ∧ f a = .ok b := by
  cases x <;> simp [bind, Except.bind]

theorem bind_eq_error_iff {x : Except ε α} {f : α → Except ε β} {e : ε} :
    x >>= f = .error e ↔ x = .error e ∨ ∃ a, x = .ok a ∧ f a = .error e := by
  cases x <;> simp [bind, Except.bind]

/-- Chains of steps that fail alike, and go on with steps that do, fail alike. -/
theorem bind_eq_error_congr {x y : Except ε α} {f g : α → Except ε β} {e : ε}
    (hfirst : ∀ e, x = .error e ↔ y = .error e) (hrest : ∀ a b, f a = .error e ↔ g b = .error e) :
    x >>= f = .error e ↔ y >>= g = .error e := by
  cases x with
  | error e' =>
      obtain rfl := (hfirst e').1 rfl
      rfl
  | ok a =>
      cases y with
      | error e' => cases (hfirst e').2 rfl
      | ok b => exact hrest a b

theorem toOption_eq_some_iff {x : Except ε α} {a : α} : x.toOption = some a ↔ x = .ok a := by
  cases x <;> simp [Except.toOption]

/-- A step that succeeds with a result of some kind, as can be seen by taking it. -/
theorem exists_ok_of_any {x : Except ε α} {p : α → Bool} (h : x.toOption.any p = true) :
    ∃ a, x = .ok a ∧ p a = true := by
  cases x with
  | error e => cases h
  | ok a => exact ⟨a, rfl, h⟩

/-- A last step that cannot fail does not matter for success. -/
theorem exists_bind_ok_iff {x : Except ε α} {f : α → β} :
    (∃ b, (x >>= fun a => .ok (f a)) = .ok b) ↔ ∃ a, x = .ok a := by
  cases x <;> simp [bind, Except.bind]

/-- All steps of a list succeed exactly with the results of each. -/
theorem mapM_eq_ok_iff {f : α → Except ε β} {l : List α} {results : List β} :
    l.mapM f = .ok results ↔ List.Forall₂ (fun a b => f a = .ok b) l results := by
  induction l generalizing results with
  | nil =>
      rw [List.mapM_nil, List.forall₂_nil_left_iff]
      exact ⟨fun h => (Except.ok.inj h).symm, fun h => h ▸ rfl⟩
  | cons a rest ih =>
      rw [List.mapM_cons, List.forall₂_cons_left_iff]
      simp only [bind_eq_ok_iff, ih]
      constructor
      · rintro ⟨b, hb, bs, hbs, h⟩
        exact ⟨b, bs, hb, hbs, (Except.ok.inj h).symm⟩
      · rintro ⟨b, bs, hb, hbs, rfl⟩
        exact ⟨b, hb, bs, hbs, rfl⟩

/-- What each step makes sure of its result holds of all results. -/
theorem forall_mem_of_mapM_eq_ok {f : α → Except ε β} {l : List α} {results : List β}
    {P : β → Prop} (h : l.mapM f = .ok results) (hstep : ∀ a ∈ l, ∀ b, f a = .ok b → P b) :
    ∀ b ∈ results, P b := by
  induction mapM_eq_ok_iff.1 h with
  | nil => exact List.forall_mem_nil _
  | cons hfirst hrest ih =>
      obtain ⟨hhead, htail⟩ := List.forall_mem_cons.1 hstep
      exact List.forall_mem_cons.2 ⟨hhead _ hfirst, ih (mapM_eq_ok_iff.2 hrest) htail⟩

/-- What each step keeps of its argument is kept along the list. -/
theorem map_eq_of_mapM_eq_ok {γ : Type} {f : α → Except ε β} {l : List α} {results : List β}
    {g : α → γ} {g' : β → γ} (h : l.mapM f = .ok results)
    (hstep : ∀ a b, f a = .ok b → g' b = g a) : results.map g' = l.map g := by
  induction mapM_eq_ok_iff.1 h with
  | nil => rfl
  | cons hfirst hrest ih =>
      rw [List.map_cons, List.map_cons, hstep _ _ hfirst, ih (mapM_eq_ok_iff.2 hrest)]

/-- All steps of a list succeed if each of them does. -/
theorem exists_mapM_eq_ok_iff {f : α → Except ε β} {l : List α} :
    (∃ results, l.mapM f = .ok results) ↔ ∀ a ∈ l, ∃ b, f a = .ok b := by
  simp only [mapM_eq_ok_iff]
  induction l with
  | nil => simp
  | cons a rest ih =>
      rw [List.forall_mem_cons, ← ih]
      constructor
      · rintro ⟨results, h⟩
        obtain ⟨b, bs, hb, hbs, -⟩ := List.forall₂_cons_left_iff.1 h
        exact ⟨⟨b, hb⟩, bs, hbs⟩
      · rintro ⟨⟨b, hb⟩, bs, hbs⟩
        exact ⟨b :: bs, .cons hb hbs⟩

end TabularView
