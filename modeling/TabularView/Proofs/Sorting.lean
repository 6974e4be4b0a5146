import Mathlib.Data.List.Basic

set_option autoImplicit false

/-! # Sorting by a comparison

Uploads, names and tables are all sorted by a merge sort over a comparison. The sort is stable:
elements that compare equal keep their places among each other (`classOf_sortBy`), so the result is
determined by the classes of equal elements and the order inside each (`sortBy_eq_of_classes`).
Hence it does not matter whether elements are left out before or after (`filter_sortBy`). Where only
equal elements compare equal, the result is determined by the elements alone
(`sortBy_eq_of_perm`). -/

namespace TabularView.Sorting

variable {α : Type} {cmp : α → α → Ordering}

/-- A list in the order of a comparison; elements that compare equal keep their places. -/
abbrev sortBy (cmp : α → α → Ordering) (l : List α) : List α :=
  l.mergeSort fun a b => (cmp a b).isLE

/-- The elements that compare equal to a given one, in their order. -/
def classOf (cmp : α → α → Ordering) (a : α) (l : List α) : List α :=
  l.filter fun b => cmp a b == .eq

/-! ## Comparisons as Boolean orders -/

theorem isLE_trans [Std.TransCmp cmp] (a b c : α) (hab : (cmp a b).isLE = true)
    (hbc : (cmp b c).isLE = true) : (cmp a c).isLE = true :=
  Std.TransCmp.isLE_trans hab hbc

theorem isLE_total [Std.OrientedCmp cmp] (a b : α) :
    ((cmp a b).isLE || (cmp b a).isLE) = true := by
  have hswap : cmp b a = (cmp a b).swap := Std.OrientedCmp.eq_swap
  rw [hswap]
  cases cmp a b <;> rfl

theorem eq_of_isLE_of_isLE [Std.OrientedCmp cmp] {a b : α} (hab : (cmp a b).isLE = true)
    (hba : (cmp b a).isLE = true) : cmp a b = .eq := by
  have hswap : cmp b a = (cmp a b).swap := Std.OrientedCmp.eq_swap
  rw [hswap] at hba
  cases h : cmp a b <;> simp_all

theorem pairwise_sortBy [Std.TransCmp cmp] (l : List α) :
    (sortBy cmp l).Pairwise fun a b => (cmp a b).isLE = true :=
  List.pairwise_mergeSort isLE_trans isLE_total l

/-- Comparing through a function keeps comparisons transitive. -/
theorem transCmp_on {β : Type} (cmp : β → β → Ordering) [Std.TransCmp cmp] (f : α → β) :
    Std.TransCmp fun a b => cmp (f a) (f b) where
  eq_swap := Std.OrientedCmp.eq_swap
  isLE_trans := Std.TransCmp.isLE_trans

/-- The comparison is that of a linear order, in which only equal elements compare equal. -/
structure IsLinear (cmp : α → α → Ordering) : Prop where
  refl : ∀ a, cmp a a = .eq
  swap : ∀ a b, cmp b a = (cmp a b).swap
  trans : ∀ a b c, (cmp a b).isLE = true → (cmp b c).isLE = true → (cmp a c).isLE = true
  total : ∀ a b, (cmp a b).isLE = true ∨ (cmp b a).isLE = true
  antisymm : ∀ a b, (cmp a b).isLE = true → (cmp b a).isLE = true → a = b
  eq_of_eq : ∀ a b, cmp a b = .eq → a = b

theorem isLinear_of_lawful [Std.TransCmp cmp] [Std.LawfulEqCmp cmp] : IsLinear cmp where
  refl _ := Std.ReflCmp.compare_self
  swap _ _ := Std.OrientedCmp.eq_swap
  trans := isLE_trans
  total a b := Bool.or_eq_true_iff.1 (isLE_total a b)
  antisymm _ _ hab hba := Std.LawfulEqCmp.eq_of_compare (eq_of_isLE_of_isLE hab hba)
  eq_of_eq _ _ := Std.LawfulEqCmp.eq_of_compare

/-! ## Stability -/

theorem mem_classOf {a b : α} {l : List α} : b ∈ classOf cmp a l ↔ b ∈ l ∧ cmp a b = .eq := by
  simp [classOf]

theorem mem_classOf_self [Std.ReflCmp cmp] {a : α} {l : List α} : a ∈ classOf cmp a l ↔ a ∈ l := by
  simp [mem_classOf, Std.ReflCmp.compare_self]

theorem classOf_cons_of_eq {a b : α} (h : cmp a b = .eq) (l : List α) :
    classOf cmp a (b :: l) = b :: classOf cmp a l :=
  List.filter_cons_of_pos (by simp [h])

theorem classOf_cons_of_ne {a b : α} (h : cmp a b ≠ .eq) (l : List α) :
    classOf cmp a (b :: l) = classOf cmp a l :=
  List.filter_cons_of_neg (by simp [h])

/-- Elements of one class compare equal to each other, so a class is in order however it lies. -/
theorem pairwise_classOf [Std.TransCmp cmp] (a : α) (l : List α) :
    (classOf cmp a l).Pairwise fun b c => (cmp b c).isLE = true := by
  refine List.Pairwise.imp_of_mem (R := fun _ _ => True) ?_
    (List.pairwise_of_forall fun _ _ => trivial)
  intro b c hb hc _
  have hba : cmp b a = .eq := Std.OrientedCmp.eq_symm (mem_classOf.1 hb).2
  have hac : cmp a c = .eq := (mem_classOf.1 hc).2
  rw [Std.TransCmp.eq_trans hba hac]
  rfl

/-- Sorting keeps each class as it is. -/
theorem classOf_sortBy [Std.TransCmp cmp] (a : α) (l : List α) :
    classOf cmp a (sortBy cmp l) = classOf cmp a l := by
  have hsub : (classOf cmp a l).Sublist (sortBy cmp l) :=
    List.sublist_mergeSort isLE_trans isLE_total (pairwise_classOf a l) List.filter_sublist
  have hclass : (classOf cmp a (classOf cmp a l)).Sublist (classOf cmp a (sortBy cmp l)) :=
    hsub.filter _
  have hself : classOf cmp a (classOf cmp a l) = classOf cmp a l :=
    List.filter_eq_self.2 fun b hb => by simp [(mem_classOf.1 hb).2]
  have hlen : (classOf cmp a l).length = (classOf cmp a (sortBy cmp l)).length :=
    ((List.mergeSort_perm l _).filter _).length_eq.symm
  rw [hself] at hclass
  exact (hclass.eq_of_length hlen).symm

/-! ## What determines a sorted list -/

theorem mem_iff_of_classes [Std.ReflCmp cmp] {l l' : List α}
    (hc : ∀ a, classOf cmp a l = classOf cmp a l') (b : α) : b ∈ l ↔ b ∈ l' := by
  calc b ∈ l ↔ b ∈ classOf cmp b l := mem_classOf_self.symm
    _ ↔ b ∈ classOf cmp b l' := by rw [hc b]
    _ ↔ b ∈ l' := mem_classOf_self

/-- The first of an ascending list is at most each of its elements. -/
theorem head_isLE [Std.ReflCmp cmp] {a : α} {l : List α}
    (h : (a :: l).Pairwise fun a b => (cmp a b).isLE = true) {b : α} (hb : b ∈ a :: l) :
    (cmp a b).isLE = true := by
  rcases List.mem_cons.1 hb with rfl | hb
  · have hself : cmp b b = .eq := Std.ReflCmp.compare_self
    rw [hself]
    rfl
  · exact (List.pairwise_cons.1 h).1 b hb

/-- Two ascending lists with the same classes are the same list. -/
theorem eq_of_classes [Std.TransCmp cmp] {l l' : List α}
    (h : l.Pairwise fun a b => (cmp a b).isLE = true)
    (h' : l'.Pairwise fun a b => (cmp a b).isLE = true)
    (hc : ∀ a, classOf cmp a l = classOf cmp a l') : l = l' := by
  induction l generalizing l' with
  | nil =>
      cases l' with
      | nil => rfl
      | cons b rest => exact absurd ((mem_iff_of_classes hc b).2 (List.mem_cons_self ..)) (by simp)
  | cons a rest ih =>
      cases l' with
      | nil => exact absurd ((mem_iff_of_classes hc a).1 (List.mem_cons_self ..)) (by simp)
      | cons b rest' =>
          -- the heads are at most each other, so each is the first of one and the same class
          have hab : cmp a b = .eq :=
            eq_of_isLE_of_isLE
              (head_isLE h ((mem_iff_of_classes hc b).2 (List.mem_cons_self ..)))
              (head_isLE h' ((mem_iff_of_classes hc a).1 (List.mem_cons_self ..)))
          have hheads := hc a
          rw [classOf_cons_of_eq Std.ReflCmp.compare_self, classOf_cons_of_eq hab] at hheads
          obtain rfl : a = b := (List.cons.inj hheads).1
          have htails : ∀ c, classOf cmp c rest = classOf cmp c rest' := by
            intro c
            have hcc := hc c
            by_cases hca : cmp c a = .eq
            · rw [classOf_cons_of_eq hca, classOf_cons_of_eq hca] at hcc
              exact (List.cons.inj hcc).2
            · rwa [classOf_cons_of_ne hca, classOf_cons_of_ne hca] at hcc
          rw [ih (List.pairwise_cons.1 h).2 (List.pairwise_cons.1 h').2 htails]

/-- Lists with the same classes are the same once sorted. -/
theorem sortBy_eq_of_classes [Std.TransCmp cmp] {l l' : List α}
    (h : ∀ a, classOf cmp a l = classOf cmp a l') : sortBy cmp l = sortBy cmp l' := by
  refine eq_of_classes (pairwise_sortBy l) (pairwise_sortBy l') fun a => ?_
  rw [classOf_sortBy, classOf_sortBy, h a]

/-- Leaving elements out before sorting or after it is the same. -/
theorem filter_sortBy [Std.TransCmp cmp] (p : α → Bool) (l : List α) :
    (sortBy cmp l).filter p = sortBy cmp (l.filter p) := by
  have hswap : ∀ a : α, ∀ l : List α,
      classOf cmp a (l.filter p) = (classOf cmp a l).filter p := by
    intro a l
    simp only [classOf, List.filter_filter, Bool.and_comm]
  refine eq_of_classes ((pairwise_sortBy l).filter p) (pairwise_sortBy _) fun a => ?_
  rw [classOf_sortBy, hswap, hswap, classOf_sortBy]

/-- Where only equal elements compare equal, the order of a list does not show once it is
sorted. -/
theorem sortBy_eq_of_perm [Std.TransCmp cmp] [Std.LawfulEqCmp cmp] {l l' : List α}
    (h : l.Perm l') : sortBy cmp l = sortBy cmp l' := by
  have hp : (sortBy cmp l).Perm (sortBy cmp l') :=
    (List.mergeSort_perm l _).trans (h.trans (List.mergeSort_perm l' _).symm)
  refine hp.eq_of_pairwise (fun a b _ _ hab hba => ?_) (pairwise_sortBy l) (pairwise_sortBy l')
  exact Std.LawfulEqCmp.eq_of_compare (eq_of_isLE_of_isLE hab hba)

end TabularView.Sorting
