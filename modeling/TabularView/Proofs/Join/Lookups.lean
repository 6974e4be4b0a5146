import TabularView.Proofs.Join.Partition

set_option autoImplicit false

/-! # Looking up and joining to the end

Looking a number up follows parents to a root and then follows them once more, pointing each number
on the way at that root. Neither walk has a bound of its own: `Leads` and `Compresses` say that it
comes to an end by itself. Ranks grow along both, and they are below the size, so that both do
(`Represents.leads`, `Represents.compresses`).

After any requests (`partitions_requestAll`), two numbers have one root exactly if the pairs joined
so far connect them, looking up changes neither roots nor ranks, and the class of a root is at least
two to the power of its rank. -/

namespace TabularView.DisjointSet

variable {s : DisjointSet} {rep : Nat → Nat}

/-! ## Walks -/

/-- Following parents from a number ends at a root. -/
inductive Leads (s : DisjointSet) : Nat → Nat → Prop
  | root {i : Nat} : s.parentOf i = i → Leads s i i
  | step {i r : Nat} : s.parentOf i ≠ i → Leads s (s.parentOf i) r → Leads s i r

/-- Following parents from a number and pointing each number on the way at `r`, up to one that
points there already, ends with another disjoint set. -/
inductive Compresses (r : Nat) : Nat → DisjointSet → DisjointSet → Prop
  | done {i : Nat} {s : DisjointSet} : s.parentOf i = r → Compresses r i s s
  | step {i : Nat} {s s' : DisjointSet} : s.parentOf i ≠ r →
      Compresses r (s.parentOf i) { s with parent := s.parent.set i r } s' → Compresses r i s s'

theorem Leads.isRoot {i r : Nat} (h : s.Leads i r) : s.IsRoot r := by
  induction h with
  | root hroot => exact hroot
  | step _ _ ih => exact ih

theorem Represents.leads (h : Represents s rep) {fuel i : Nat} (hi : i < s.parent.length)
    (hfuel : s.parent.length ≤ fuel + s.rankOf i) : s.Leads i (s.walk fuel i) := by
  induction fuel generalizing i with
  | zero =>
      -- a rank would have reached the size
      have hrank := h.rankOf_lt hi
      omega
  | succ fuel ih =>
      rw [walk]
      by_cases hroot : s.parentOf i = i
      · rw [if_pos hroot]
        exact .root hroot
      · have hrank := h.rank_lt i hi hroot
        rw [if_neg hroot]
        exact .step hroot (ih (h.parent_lt i hi) (by omega))

theorem Represents.compresses (h : Represents s rep) {fuel i : Nat} (hi : i < s.parent.length)
    (hfuel : s.parent.length ≤ fuel + s.rankOf i) :
    Compresses (rep i) i s (DisjointSet.compress (rep i) fuel i s) := by
  induction fuel generalizing i s with
  | zero =>
      have hrank := h.rankOf_lt hi
      omega
  | succ fuel ih =>
      rw [DisjointSet.compress]
      by_cases hparent : s.parentOf i = rep i
      · rw [if_pos hparent]
        exact .done hparent
      · -- the next number has the same root, and its rank is greater
        have hroot : s.parentOf i ≠ i := fun he => hparent (he.trans (h.rep_root i hi he).symm)
        have hrank := h.rank_lt i hi hroot
        have hshort := h.shorten hi hparent
        have hlength : (s.parent.set i (rep i)).length = s.parent.length := List.length_set
        have hnext := ih hshort (hlength.symm ▸ h.parent_lt i hi)
          (hlength.symm ▸ (by omega : s.parent.length ≤ fuel + s.rankOf (s.parentOf i)))
        rw [h.rep_parent i hi] at hnext
        rw [if_neg hparent]
        exact .step hparent hnext

/-! ## Partitions -/

/-- A disjoint set of a size after certain pairs have been joined. -/
structure Partitions (size : Nat) (pairs : List (Nat × Nat)) (s : DisjointSet) : Prop where
  length_parent : s.parent.length = size
  length_rank : s.rank.length = size
  /-- No walk leaves the numbers below the size. -/
  parent_lt : ∀ i < size, s.parentOf i < size
  /-- Looking up ends, at a root. -/
  leads : ∀ i < size, s.Leads i (s.find i).1 ∧ s.IsRoot (s.find i).1
  compresses : ∀ i < size, Compresses (s.find i).1 i s (s.find i).2
  /-- Looking up changes no root and no rank. -/
  find_find : ∀ i < size, ∀ j < size, ((s.find i).2.find j).1 = (s.find j).1
  rank_find : ∀ i < size, (s.find i).2.rank = s.rank
  /-- Numbers have one root exactly if the pairs connect them. -/
  find_eq_iff : ∀ i < size, ∀ j < size,
    (s.find i).1 = (s.find j).1 ↔ Relation.EqvGen (fun k l => (k, l) ∈ pairs) i j
  /-- A root stands for at least two to the power of its rank. -/
  large : ∀ r < size, s.IsRoot r → 2 ^ s.rankOf r ≤ classSize size (fun i => (s.find i).1) r
  /-- Ranks are far from filling a byte as long as the size fits in 64 bits. -/
  rank_lt : size < 2 ^ 64 → ∀ i < size, s.rankOf i < 64

theorem classSize_congr {size : Nat} {rep rep' : Nat → Nat} (h : ∀ i < size, rep i = rep' i)
    (r : Nat) : classSize size rep r = classSize size rep' r := by
  refine congrArg Finset.card (Finset.filter_congr fun i hi => ?_)
  rw [h i (Finset.mem_range.1 hi)]

/-- A rank needs as many numbers as two to its power. -/
theorem Represents.two_pow_rankOf_le (h : Represents s rep) {i : Nat} (hi : i < s.parent.length) :
    2 ^ s.rankOf i ≤ s.parent.length :=
  (h.large i hi).trans (classSize_le ..)

theorem Represents.partitions (h : Represents s rep) {pairs : List (Nat × Nat)}
    (hiff : ∀ k l, rep k = rep l ↔ Relation.EqvGen (fun k l => (k, l) ∈ pairs) k l) :
    Partitions s.parent.length pairs s where
  length_parent := rfl
  length_rank := h.length_rank
  parent_lt := h.parent_lt
  leads i hi := by
    have hleads : s.Leads i (s.find i).1 := h.leads hi (Nat.le_add_right ..)
    exact ⟨hleads, hleads.isRoot⟩
  compresses i hi := by
    have hcompresses := h.compresses hi (Nat.le_add_right ..)
    rwa [← h.root_eq hi] at hcompresses
  find_find i hi j hj := by
    have hj' : j < (s.find i).2.parent.length := by rwa [length_parent_find]
    rw [fst_find (h.find hi) hj', fst_find h hj]
  rank_find i _ := DisjointSet.rank_find s i
  find_eq_iff i hi j hj := by
    rw [fst_find h hi, fst_find h hj]
    exact hiff i j
  large r hr hroot := by
    have hlarge := h.large r hr
    rw [h.rep_root r hr hroot] at hlarge
    rwa [classSize_congr fun i hi => fst_find h hi]
  rank_lt hsize i hi := by
    have hle := h.two_pow_rankOf_le hi
    exact (Nat.pow_lt_pow_iff_right (by decide : 1 < 2)).1 (hle.trans_lt hsize)

/-- Whatever is asked of numbers in classes of their own, each number can be looked up after it, and
the classes are those that the joined pairs connect. -/
theorem partitions_requestAll {size : Nat} {requests : List Request}
    (h : ∀ q ∈ requests, q.Within size) :
    Partitions size (requests.flatMap (·.pairs)) ((singletons size).requestAll requests) := by
  obtain ⟨rep, hrep, hiff⟩ := exists_represents_requestAll h
  have hlength : ((singletons size).requestAll requests).parent.length = size :=
    (length_parent_requestAll _ _).trans List.length_range
  have hpartitions := hrep.partitions hiff
  rwa [hlength] at hpartitions

/-- Two classes of two, joined after a number has been looked up, have a root of rank two that
stands for all four numbers, and a fifth one stays apart. -/
theorem partitions_requestAll_five :
    let requests : List Request := [.union 0 1, .union 2 3, .find 3, .union 1 3]
    let s := (singletons 5).requestAll requests
    (∀ q ∈ requests, q.Within 5) ∧ Partitions 5 [(0, 1), (2, 3), (1, 3)] s ∧
      Relation.EqvGen (fun k l => (k, l) ∈ [(0, 1), (2, 3), (1, 3)]) 0 2 ∧
      ¬ Relation.EqvGen (fun k l => (k, l) ∈ [(0, 1), (2, 3), (1, 3)]) 0 4 ∧
      s.rankOf (s.find 3).1 = 2 := by
  intro requests s
  have hwithin : ∀ q ∈ requests, q.Within 5 := by simp [requests, Request.Within]
  have hpartitions : Partitions 5 [(0, 1), (2, 3), (1, 3)] s := partitions_requestAll hwithin
  refine ⟨hwithin, hpartitions, ?_, ?_, by decide⟩
  · exact (hpartitions.find_eq_iff 0 (by decide) 2 (by decide)).1 (by decide)
  · intro hconnected
    exact absurd ((hpartitions.find_eq_iff 0 (by decide) 4 (by decide)).2 hconnected) (by decide)

end TabularView.DisjointSet
