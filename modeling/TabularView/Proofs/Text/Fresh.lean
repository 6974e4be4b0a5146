import Mathlib.Data.List.Nodup
import Mathlib.Data.List.Perm.Subperm
import TabularView.Text.Fresh

set_option autoImplicit false

/-! # What is fresh

A fresh name is not in use (`fresh_not_mem`): no two numbered names of a base are the same, so that
the names in use cannot be all of the ones that are tried (`le_length_of_forall_numbered_mem`).
Names made fresh in turn are therefore all different (`nodup_freshen`), and each is the one asked
for or has the smallest number that is free (`isFresh_freshen`). Names that are all different
already stay as they are (`freshen_eq_self`). -/

namespace TabularView.Text

/-! ## Numbered names -/

theorem numbered_injective (base : String) : Function.Injective (numbered base) := by
  intro j k h
  have hdigits : Nat.toDigits 10 j = Nat.toDigits 10 k := by
    have hchars := congrArg String.toList h
    simp only [numbered, String.toList_append, Nat.toString_eq_ofList_toDigits,
      String.toList_ofList] at hchars
    exact List.append_cancel_left hchars
  have hvalues := congrArg (Nat.ofDigitChars 10 · 0) hdigits
  simpa using hvalues

/-- There are at least as many names in use as there are numbered ones among them. -/
theorem le_length_of_forall_numbered_mem {used : List String} {base : String} {n : Nat}
    (h : ∀ m, 1 ≤ m → m ≤ n → numbered base m ∈ used) : n ≤ used.length := by
  have hnodup : ((List.range' 1 n).map (numbered base)).Nodup :=
    List.Nodup.map (numbered_injective base) List.nodup_range'
  have hsubset : (List.range' 1 n).map (numbered base) ⊆ used := by
    intro name hname
    obtain ⟨m, hm, rfl⟩ := List.mem_map.1 hname
    obtain ⟨hfirst, hlast⟩ := List.mem_range'_1.1 hm
    exact h m hfirst (by omega)
  simpa using (List.subperm_of_subset hnodup hsubset).length_le

theorem numbered_ne (base : String) (k : Nat) : numbered base k ≠ base := by
  intro h
  have hchars := congrArg (fun s => s.toList.length) h
  simp [numbered] at hchars

/-- If the base is in use as well, there are more names in use than numbered ones among them. -/
theorem lt_length_of_forall_numbered_mem {used : List String} {base : String} {n : Nat}
    (hbase : base ∈ used) (h : ∀ m, 1 ≤ m → m ≤ n → numbered base m ∈ used) :
    n < used.length := by
  have hothers : ∀ m, 1 ≤ m → m ≤ n → numbered base m ∈ used.erase base := by
    intro m hm hmn
    exact (List.mem_erase_of_ne (numbered_ne base m)).2 (h m hm hmn)
  have hle := le_length_of_forall_numbered_mem hothers
  rw [List.length_erase_of_mem hbase] at hle
  have hpos := List.length_pos_of_mem hbase
  omega

/-! ## The search -/

/-- The search stops at the first free name, or after its last try. -/
theorem exists_firstFree_eq (used : List String) (base : String) (fuel k : Nat) :
    ∃ j, k ≤ j ∧ firstFree used base fuel k = numbered base j ∧
      (∀ m, k ≤ m → m < j → numbered base m ∈ used) ∧
      (numbered base j ∈ used → j = k + fuel) := by
  induction fuel generalizing k with
  | zero => exact ⟨k, Nat.le_refl k, rfl, fun m hm hmk => absurd hmk (by omega), fun _ => rfl⟩
  | succ fuel ih =>
      rw [firstFree]
      split
      · next hused =>
          obtain ⟨j, hj, heq, hbefore, hlast⟩ := ih (k + 1)
          refine ⟨j, by omega, heq, fun m hm hmj => ?_, fun h => by rw [hlast h]; omega⟩
          rcases Nat.eq_or_lt_of_le hm with rfl | hm
          · exact List.contains_iff_mem.1 hused
          · exact hbefore m hm hmj
      · next hfree =>
          refine ⟨k, Nat.le_refl k, rfl, fun m hm hmk => absurd hmk (by omega), fun h => ?_⟩
          exact absurd (List.contains_iff_mem.2 h) hfree

/-- A name in use gets the smallest number with which it is free. -/
theorem exists_fresh_eq_of_mem {used : List String} {base : String} (h : base ∈ used) :
    ∃ j, 1 ≤ j ∧ fresh used base = numbered base j ∧ numbered base j ∉ used ∧
      ∀ m, 1 ≤ m → m < j → numbered base m ∈ used := by
  obtain ⟨j, hj, heq, hbefore, hlast⟩ := exists_firstFree_eq used base used.length 1
  refine ⟨j, hj, by rw [fresh, if_pos (List.contains_iff_mem.2 h), heq], fun hused => ?_, hbefore⟩
  -- otherwise one more numbered name than there are names would be in use
  have hall : ∀ m, 1 ≤ m → m ≤ j → numbered base m ∈ used := by
    intro m hm hmj
    rcases Nat.eq_or_lt_of_le hmj with rfl | hmj
    · exact hused
    · exact hbefore m hm hmj
  have hlength := le_length_of_forall_numbered_mem hall
  rw [hlast hused] at hlength
  omega

theorem fresh_not_mem (used : List String) (base : String) : fresh used base ∉ used := by
  by_cases h : base ∈ used
  · obtain ⟨j, -, heq, hfree, -⟩ := exists_fresh_eq_of_mem h
    rwa [heq]
  · rwa [fresh_of_not_mem h]

/-- A name is given in place of the one that is asked for: it is not in use, and it is that name
itself if this is not in use, or else that name with the smallest number that makes it free. -/
structure IsFresh (used : List String) (asked given : String) : Prop where
  not_mem : given ∉ used
  eq_asked : asked ∉ used → given = asked
  eq_numbered : asked ∈ used → ∃ j, 1 ≤ j ∧ given = numbered asked j ∧
    ∀ m, 1 ≤ m → m < j → numbered asked m ∈ used

theorem isFresh_fresh (used : List String) (asked : String) :
    IsFresh used asked (fresh used asked) where
  not_mem := fresh_not_mem used asked
  eq_asked := fresh_of_not_mem
  eq_numbered h := by
    obtain ⟨j, hj, heq, -, hbefore⟩ := exists_fresh_eq_of_mem h
    exact ⟨j, hj, heq, hbefore⟩

/-- A name gets a number no greater than the number of names in use: so many tries find one. -/
theorem IsFresh.exists_numbered {used : List String} {asked given : String}
    (h : IsFresh used asked given) (hused : asked ∈ used) :
    ∃ k, 1 ≤ k ∧ k ≤ used.length ∧ given = numbered asked k ∧
      ∀ m, 1 ≤ m → m < k → numbered asked m ∈ used := by
  obtain ⟨k, hk, hgiven, hbefore⟩ := h.eq_numbered hused
  have htries : k - 1 < used.length :=
    lt_length_of_forall_numbered_mem hused fun m hm hmk => hbefore m hm (by omega)
  exact ⟨k, hk, by omega, hgiven, hbefore⟩

/-- It only matters which names are in use. -/
theorem IsFresh.congr {used used' : List String} {asked given : String}
    (h : IsFresh used asked given) (hsame : ∀ name, name ∈ used ↔ name ∈ used') :
    IsFresh used' asked given := by
  obtain ⟨hfree, hasked, hnumbered⟩ := h
  simp only [hsame] at hfree hasked hnumbered
  exact ⟨hfree, hasked, hnumbered⟩

/-! ## Names in turn -/

/-- Each of the names made fresh in turn is fresh with respect to those before it. -/
theorem isFresh_freshen {used names : List String} {i : Nat} {asked given : String}
    (hasked : names[i]? = some asked) (hgiven : (freshen used names)[i]? = some given) :
    IsFresh (used ++ (freshen used names).take i) asked given := by
  induction names generalizing used i with
  | nil => cases hasked
  | cons name rest ih =>
      cases i with
      | zero =>
          obtain rfl := Option.some.inj hasked
          obtain rfl := Option.some.inj hgiven
          simpa using isFresh_fresh used name
      | succ i =>
          have hrest : IsFresh ((fresh used name :: used) ++
              (freshen (fresh used name :: used) rest).take i) asked given := ih hasked hgiven
          refine hrest.congr fun other => ?_
          simp only [freshen, List.take_succ_cons, List.mem_append, List.mem_cons]
          tauto

theorem freshen_eq_self {names : List String} (h : names.Nodup) : freshen [] names = names := by
  have happend := freshen_append h (fun name _ => List.not_mem_nil) []
  simpa [freshen] using happend

/-- What holds of the names asked for, numbered or not, holds of the fresh ones. -/
theorem forall_mem_freshen {P : String → Prop} (hnumbered : ∀ name k, P name → P (numbered name k))
    {names : List String} (h : ∀ name ∈ names, P name) (used : List String) :
    ∀ name ∈ freshen used names, P name := by
  induction names generalizing used with
  | nil => exact List.forall_mem_nil _
  | cons name rest ih =>
      obtain ⟨hname, hrest⟩ := List.forall_mem_cons.1 h
      refine List.forall_mem_cons.2 ⟨?_, ih hrest _⟩
      by_cases hused : name ∈ used
      · obtain ⟨j, -, heq, -, -⟩ := exists_fresh_eq_of_mem hused
        rw [heq]
        exact hnumbered name j hname
      · rwa [fresh_of_not_mem hused]

/-- Fresh names are not in use. -/
theorem freshen_not_mem {used names : List String} {name : String} (h : name ∈ freshen used names) :
    name ∉ used := by
  induction names generalizing used with
  | nil => cases h
  | cons asked rest ih =>
      rcases List.mem_cons.1 h with rfl | h
      · exact fresh_not_mem used asked
      · exact fun hused => ih h (List.mem_cons_of_mem _ hused)

/-- No two fresh names are the same. -/
theorem nodup_freshen (used names : List String) : (freshen used names).Nodup := by
  induction names generalizing used with
  | nil => exact List.nodup_nil
  | cons name rest ih =>
      exact List.nodup_cons.2 ⟨fun h => freshen_not_mem h (List.mem_cons_self ..), ih _⟩

end TabularView.Text
