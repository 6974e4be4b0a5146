import Mathlib.Algebra.Ring.Nat
import Mathlib.Data.Finset.Card
import Mathlib.Logic.Relation
import TabularView.Join.DisjointSet

set_option autoImplicit false

/-! # The partition behind disjoint sets

A disjoint set stands for a function that gives every number the root of its class
(`DisjointSet.Represents`). Looking a number up finds that root and leaves the function alone
(`fst_find`, `Represents.find`); joining two numbers joins their classes and no others
(`Represents.union`), so after any requests two numbers have one root exactly when the pairs that
were joined connect them (`exists_represents_requestAll`).

Ranks grow on the way to a root, and a class is at least two to the power of its ranks. So ranks are
below the size, and a walk of as many steps as there are numbers ends at a root. -/

namespace TabularView.DisjointSet

/-! ## Ranks and classes -/

/-- The rank of a number. -/
def rankOf (s : DisjointSet) (i : Nat) : Nat :=
  s.rank.getD i 0

/-- How many numbers below a size have a certain root. -/
def classSize (size : Nat) (rep : Nat → Nat) (r : Nat) : Nat :=
  ((Finset.range size).filter fun i => rep i = r).card

theorem classSize_le (size : Nat) (rep : Nat → Nat) (r : Nat) : classSize size rep r ≤ size := by
  have h := Finset.card_filter_le (Finset.range size) fun i => rep i = r
  rwa [Finset.card_range] at h

/-- The disjoint set has the root `rep i` for every number `i`. -/
structure Represents (s : DisjointSet) (rep : Nat → Nat) : Prop where
  length_rank : s.rank.length = s.parent.length
  parent_lt : ∀ i < s.parent.length, s.parentOf i < s.parent.length
  rank_lt : ∀ i < s.parent.length, s.parentOf i ≠ i → s.rankOf i < s.rankOf (s.parentOf i)
  rep_parent : ∀ i < s.parent.length, rep (s.parentOf i) = rep i
  rep_root : ∀ i < s.parent.length, s.parentOf i = i → rep i = i
  large : ∀ i < s.parent.length, 2 ^ s.rankOf i ≤ classSize s.parent.length rep (rep i)

theorem represents_singletons (size : Nat) : Represents (singletons size) id := by
  have hparent : ∀ i, (singletons size).parentOf i = i := by
    intro i
    by_cases hi : i < size
    · simp [singletons, parentOf, hi]
    · simp [singletons, parentOf, Nat.le_of_not_lt hi]
  have hrank : ∀ i, (singletons size).rankOf i = 0 := by
    intro i
    by_cases hi : i < size
    · simp [singletons, rankOf, hi]
    · simp [singletons, rankOf, Nat.le_of_not_lt hi]
  have hlength : (singletons size).parent.length = size := List.length_range
  refine ⟨by simp [singletons], ?_, ?_, ?_, fun _ _ _ => rfl, ?_⟩
  · intro i hi
    rwa [hparent]
  · intro i _ hne
    exact absurd (hparent i) hne
  · intro i _
    rw [hparent]
  · intro i hi
    rw [hrank, hlength]
    exact Finset.card_pos.2 ⟨i, Finset.mem_filter.2 ⟨Finset.mem_range.2 (hlength ▸ hi), rfl⟩⟩

variable {s : DisjointSet} {rep : Nat → Nat}

/-! ## Looking up -/

theorem Represents.rankOf_lt (h : Represents s rep) {i : Nat} (hi : i < s.parent.length) :
    s.rankOf i < s.parent.length :=
  calc s.rankOf i < 2 ^ s.rankOf i := Nat.lt_two_pow_self
    _ ≤ classSize s.parent.length rep (rep i) := h.large i hi
    _ ≤ s.parent.length := classSize_le ..

/-- A walk that has a step for every rank still to come ends at the root. -/
theorem Represents.walk_eq (h : Represents s rep) {fuel i : Nat} (hi : i < s.parent.length)
    (hfuel : s.parent.length ≤ fuel + s.rankOf i) :
    s.walk fuel i = rep i ∧ rep i < s.parent.length ∧ s.parentOf (rep i) = rep i ∧
      s.rankOf i ≤ s.rankOf (rep i) := by
  induction fuel generalizing i with
  | zero =>
      -- a rank would have reached the size
      have hrank := h.rankOf_lt hi
      omega
  | succ fuel ih =>
      rw [walk]
      by_cases hroot : s.parentOf i = i
      · rw [if_pos hroot, h.rep_root i hi hroot]
        exact ⟨rfl, hi, hroot, Nat.le_refl _⟩
      · -- a step uses up one of the fuel and gains at least one in rank
        have hrank := h.rank_lt i hi hroot
        obtain ⟨hwalk, hlt, hparent, hle⟩ := ih (h.parent_lt i hi) (by omega)
        rw [h.rep_parent i hi] at hwalk hlt hparent hle
        rw [if_neg hroot]
        exact ⟨hwalk, hlt, hparent, by omega⟩

theorem Represents.root_eq (h : Represents s rep) {i : Nat} (hi : i < s.parent.length) :
    s.root i = rep i :=
  (h.walk_eq hi (Nat.le_add_right ..)).1

theorem Represents.rep_lt (h : Represents s rep) {i : Nat} (hi : i < s.parent.length) :
    rep i < s.parent.length :=
  (h.walk_eq hi (Nat.le_add_right ..)).2.1

theorem Represents.parentOf_rep (h : Represents s rep) {i : Nat} (hi : i < s.parent.length) :
    s.parentOf (rep i) = rep i :=
  (h.walk_eq hi (Nat.le_add_right ..)).2.2.1

theorem Represents.rankOf_le_rep (h : Represents s rep) {i : Nat} (hi : i < s.parent.length) :
    s.rankOf i ≤ s.rankOf (rep i) :=
  (h.walk_eq hi (Nat.le_add_right ..)).2.2.2

theorem Represents.rep_rep (h : Represents s rep) {i : Nat} (hi : i < s.parent.length) :
    rep (rep i) = rep i :=
  h.rep_root _ (h.rep_lt hi) (h.parentOf_rep hi)

/-- Pointing a number at another one changes its parent alone. -/
theorem parentOf_set (s : DisjointSet) (rank : List Nat) {i : Nat} (hi : i < s.parent.length)
    (r j : Nat) :
    parentOf { parent := s.parent.set i r, rank := rank } j =
      if j = i then r else s.parentOf j := by
  by_cases hj : j = i
  · subst hj
    simp [parentOf, hi]
  · simp [parentOf, hj, Ne.symm hj]

/-- Pointing a number at one of higher rank gives the roots `rep'` if these agree along all
parents and the classes stay large enough. -/
theorem Represents.point (h : Represents s rep) {i r : Nat} (hi : i < s.parent.length)
    (hr : r < s.parent.length) {rank : List Nat} {rep' : Nat → Nat}
    (hlength : rank.length = s.rank.length) (hlt : rank.getD i 0 < rank.getD r 0)
    (hrank : ∀ j < s.parent.length, j ≠ i → s.parentOf j ≠ j →
      rank.getD j 0 < rank.getD (s.parentOf j) 0)
    (hrep : rep' r = rep' i)
    (hparent : ∀ j < s.parent.length, j ≠ i → rep' (s.parentOf j) = rep' j)
    (hroot : ∀ j < s.parent.length, j ≠ i → s.parentOf j = j → rep' j = j)
    (hlarge : ∀ j < s.parent.length, 2 ^ rank.getD j 0 ≤ classSize s.parent.length rep' (rep' j)) :
    Represents { parent := s.parent.set i r, rank := rank } rep' := by
  have hset := parentOf_set s rank hi r
  have hsize : (s.parent.set i r).length = s.parent.length := List.length_set
  refine ⟨by rw [hlength, hsize]; exact h.length_rank, ?_, ?_, ?_, ?_, ?_⟩
  · intro j hj
    rw [hsize] at hj ⊢
    rw [hset]
    split
    · exact hr
    · exact h.parent_lt j hj
  · intro j hj hne
    rw [hsize] at hj
    rw [hset] at hne ⊢
    by_cases hji : j = i
    · rw [if_pos hji, hji]
      exact hlt
    · rw [if_neg hji] at hne ⊢
      exact hrank j hj hji hne
  · intro j hj
    rw [hsize] at hj
    rw [hset]
    by_cases hji : j = i
    · rw [if_pos hji, hji]
      exact hrep
    · rw [if_neg hji]
      exact hparent j hj hji
  · intro j hj heq
    rw [hsize] at hj
    rw [hset] at heq
    by_cases hji : j = i
    · -- the number itself is no root any more
      rw [if_pos hji, hji] at heq
      rw [heq] at hlt
      exact absurd hlt (Nat.lt_irrefl _)
    · rw [if_neg hji] at heq
      exact hroot j hj hji heq
  · intro j hj
    rw [hsize] at hj ⊢
    exact hlarge j hj

/-- Pointing a number directly at its root leaves all roots as they are. -/
theorem Represents.shorten (h : Represents s rep) {i : Nat} (hi : i < s.parent.length)
    (hne : s.parentOf i ≠ rep i) :
    Represents { s with parent := s.parent.set i (rep i) } rep := by
  have hroot : s.parentOf i ≠ i := fun he => hne (he.trans (h.rep_root i hi he).symm)
  have hrank : s.rankOf i < s.rankOf (rep i) := by
    have hstep := h.rank_lt i hi hroot
    have hup := h.rankOf_le_rep (h.parent_lt i hi)
    rw [h.rep_parent i hi] at hup
    omega
  exact h.point hi (h.rep_lt hi) rfl hrank (fun j hj _ => h.rank_lt j hj) (h.rep_rep hi)
    (fun j hj _ => h.rep_parent j hj) (fun j hj _ => h.rep_root j hj) h.large

theorem Represents.compress (h : Represents s rep) {fuel i : Nat} (hi : i < s.parent.length) :
    Represents (DisjointSet.compress (rep i) fuel i s) rep := by
  induction fuel generalizing i s with
  | zero => exact h
  | succ fuel ih =>
      rw [DisjointSet.compress]
      by_cases hparent : s.parentOf i = rep i
      · rwa [if_pos hparent]
      · rw [if_neg hparent, ← h.rep_parent i hi]
        have hlength : (s.parent.set i (rep i)).length = s.parent.length := List.length_set
        have hshort := h.shorten hi hparent
        rw [← h.rep_parent i hi] at hshort hlength
        exact ih hshort (by rw [hlength]; exact h.parent_lt i hi)

theorem fst_find (h : Represents s rep) {i : Nat} (hi : i < s.parent.length) :
    (s.find i).1 = rep i :=
  h.root_eq hi

theorem Represents.find (h : Represents s rep) {i : Nat} (hi : i < s.parent.length) :
    Represents (s.find i).2 rep := by
  have hcompress : Represents (DisjointSet.compress (rep i) s.parent.length i s) rep :=
    h.compress hi
  rwa [← h.root_eq hi] at hcompress

/-! ## Joining -/

/-- The roots once the class of `b` has been put under `a`. -/
def joined (rep : Nat → Nat) (a b i : Nat) : Nat :=
  if rep i = b then a else rep i

theorem classSize_joined (size : Nat) (rep : Nat → Nat) {a b : Nat} (hne : a ≠ b) :
    classSize size (joined rep a b) a = classSize size rep a + classSize size rep b := by
  have hfilter : ((Finset.range size).filter fun i => joined rep a b i = a) =
      ((Finset.range size).filter fun i => rep i = a) ∪
        (Finset.range size).filter fun i => rep i = b := by
    rw [← Finset.filter_or]
    refine Finset.filter_congr fun i _ => ?_
    rw [joined]
    split
    · simp_all
    · simp_all
  have hdisjoint : Disjoint ((Finset.range size).filter fun i => rep i = a)
      ((Finset.range size).filter fun i => rep i = b) := by
    refine Finset.disjoint_filter.2 fun i _ ha hb => hne (ha.symm.trans hb)
  rw [classSize, hfilter, Finset.card_union_of_disjoint hdisjoint]
  rfl

theorem classSize_joined_of_ne (size : Nat) (rep : Nat → Nat) {a b r : Nat} (ha : r ≠ a)
    (hb : r ≠ b) : classSize size (joined rep a b) r = classSize size rep r := by
  refine congrArg Finset.card (Finset.filter_congr fun i _ => ?_)
  rw [joined]
  split
  · next h => simp [h, Ne.symm ha, Ne.symm hb]
  · rfl

/-- No class gets smaller. -/
theorem classSize_le_joined (size : Nat) (rep : Nat → Nat) {a b : Nat} (hne : a ≠ b) (i : Nat) :
    classSize size rep (rep i) ≤ classSize size (joined rep a b) (joined rep a b i) := by
  by_cases hb : rep i = b
  · rw [joined, if_pos hb, classSize_joined size rep hne, hb]
    omega
  · by_cases ha : rep i = a
    · rw [joined, if_neg hb, ha, classSize_joined size rep hne]
      omega
    · rw [joined, if_neg hb, classSize_joined_of_ne size rep ha hb]

/-- Putting a root under another one joins their classes, if no rank gets in the way. -/
theorem Represents.attach (h : Represents s rep) {a b : Nat} (ha : a < s.parent.length)
    (hb : b < s.parent.length) (hra : rep a = a) (hrb : rep b = b) (hne : a ≠ b)
    {rank : List Nat} (hlength : rank.length = s.rank.length)
    (hother : ∀ i, i ≠ a → rank.getD i 0 = s.rankOf i) (hup : s.rankOf a ≤ rank.getD a 0)
    (hlt : s.rankOf b < rank.getD a 0)
    (hlarge : 2 ^ rank.getD a 0 ≤
      classSize s.parent.length rep a + classSize s.parent.length rep b) :
    Represents { parent := s.parent.set b a, rank := rank } (joined rep a b) := by
  have hroot : s.parentOf a = a := by
    have hparent := h.parentOf_rep ha
    rwa [hra] at hparent
  have hle : ∀ i, s.rankOf i ≤ rank.getD i 0 := by
    intro i
    by_cases hi : i = a
    · rwa [hi]
    · rw [hother i hi]
  have hlower : rank.getD b 0 < rank.getD a 0 := by rwa [hother b (Ne.symm hne)]
  refine h.point hb ha hlength hlower ?_ ?_ ?_ ?_ ?_
  · intro j hj _ hparent
    have hja : j ≠ a := fun heq => hparent (heq ▸ hroot)
    rw [hother j hja]
    exact Nat.lt_of_lt_of_le (h.rank_lt j hj hparent) (hle _)
  · simp [joined, hra, hrb, hne]
  · intro j hj _
    rw [joined, joined, h.rep_parent j hj]
  · intro j hj hjb hparent
    rw [joined, h.rep_root j hj hparent, if_neg hjb]
  · intro j hj
    by_cases hja : j = a
    · subst hja
      rw [joined, hra, if_neg hne, classSize_joined _ _ hne]
      exact hlarge
    · rw [hother j hja]
      exact (h.large j hj).trans (classSize_le_joined _ _ hne j)

/-- Linking two roots joins their classes. -/
theorem Represents.link (h : Represents s rep) {a b : Nat} (ha : a < s.parent.length)
    (hb : b < s.parent.length) (hra : rep a = a) (hrb : rep b = b) (hne : a ≠ b) :
    Represents (s.link a b) (joined rep a b) ∨ Represents (s.link a b) (joined rep b a) := by
  have hlargeA := h.large a ha
  have hlargeB := h.large b hb
  rw [hra] at hlargeA
  rw [hrb] at hlargeB
  rw [DisjointSet.link]
  split
  · next hlt =>
      refine Or.inr (h.attach hb ha hrb hra hne.symm rfl (fun _ _ => rfl) (Nat.le_refl _) hlt ?_)
      exact hlargeB.trans (Nat.le_add_right ..)
  · split
    · next hlt =>
        refine Or.inl (h.attach ha hb hra hrb hne rfl (fun _ _ => rfl) (Nat.le_refl _) hlt ?_)
        exact hlargeA.trans (Nat.le_add_right ..)
    · next hle hge =>
        have heq : s.rankOf a = s.rankOf b :=
          Nat.le_antisymm (Nat.le_of_not_lt hge) (Nat.le_of_not_lt hle)
        have hself : (s.rank.set a (s.rank.getD a 0 + 1)).getD a 0 = s.rankOf a + 1 := by
          simp [rankOf, h.length_rank, ha]
        have hother : ∀ i, i ≠ a → (s.rank.set a (s.rank.getD a 0 + 1)).getD i 0 = s.rankOf i := by
          intro i hi
          simp [rankOf, Ne.symm hi]
        refine Or.inl (h.attach ha hb hra hrb hne List.length_set hother ?_ ?_ ?_)
        · rw [hself]
          omega
        · rw [hself]
          omega
        · -- two classes of equal rank together hold twice as much as the rank asks for
          rw [hself, Nat.pow_succ]
          rw [← heq] at hlargeB
          omega

/-- Two numbers have one root once the classes of `i` and `j` are one. -/
def Merged (rep : Nat → Nat) (i j k l : Nat) : Prop :=
  rep k = rep l ∨ (rep k = rep i ∧ rep l = rep j) ∨ (rep k = rep j ∧ rep l = rep i)

theorem joined_eq_joined_iff (rep : Nat → Nat) {i j k l : Nat} (hne : rep i ≠ rep j) :
    joined rep (rep i) (rep j) k = joined rep (rep i) (rep j) l ↔ Merged rep i j k l := by
  rw [joined, joined, Merged]
  split <;> split <;> grind

theorem Represents.union (h : Represents s rep) {i j : Nat} (hi : i < s.parent.length)
    (hj : j < s.parent.length) :
    ∃ rep', Represents (s.union i j) rep' ∧ ∀ k l, rep' k = rep' l ↔ Merged rep i j k l := by
  have hfirst := h.find hi
  have hlength : (s.find i).2.parent.length = s.parent.length := length_parent_find s i
  have hj' : j < (s.find i).2.parent.length := by rw [hlength]; exact hj
  have hsecond := hfirst.find hj'
  have hlength' : ((s.find i).2.find j).2.parent.length = s.parent.length := by
    rw [length_parent_find, hlength]
  rw [DisjointSet.union]
  dsimp only
  rw [fst_find h hi, fst_find hfirst hj']
  by_cases heq : rep i = rep j
  · -- one class already
    rw [if_pos heq]
    refine ⟨rep, hsecond, fun k l => ?_⟩
    rw [Merged, heq]
    constructor
    · exact Or.inl
    · rintro (hkl | ⟨hk, hl⟩ | ⟨hk, hl⟩)
      · exact hkl
      · rw [hk, hl]
      · rw [hk, hl]
  · rw [if_neg heq]
    have hlt : rep i < ((s.find i).2.find j).2.parent.length := by rw [hlength']; exact h.rep_lt hi
    have hlt' : rep j < ((s.find i).2.find j).2.parent.length := by rw [hlength']; exact h.rep_lt hj
    rcases hsecond.link hlt hlt' (h.rep_rep hi) (h.rep_rep hj) heq with hlink | hlink
    · exact ⟨_, hlink, fun k l => joined_eq_joined_iff rep heq⟩
    · refine ⟨_, hlink, fun k l => ?_⟩
      rw [joined_eq_joined_iff rep (Ne.symm heq), Merged, Merged]
      exact or_congr_right or_comm

/-! ## Requests -/

/-- What a disjoint set is asked: the root of a number, or to join the classes of two. -/
inductive Request
  | find (i : Nat)
  | union (i j : Nat)
deriving DecidableEq, Repr

namespace Request

/-- The numbers of the request are below a size. -/
def Within (size : Nat) : Request → Prop
  | .find i => i < size
  | .union i j => i < size ∧ j < size

/-- The pair that the request joins, if it does. -/
def pairs : Request → List (Nat × Nat)
  | .find _ => []
  | .union i j => [(i, j)]

end Request

/-- The disjoint set after a request. -/
def request (s : DisjointSet) : Request → DisjointSet
  | .find i => (s.find i).2
  | .union i j => s.union i j

/-- The disjoint set after requests, from first to last. -/
def requestAll (s : DisjointSet) (requests : List Request) : DisjointSet :=
  requests.foldl request s

theorem length_parent_request (s : DisjointSet) (q : Request) :
    (s.request q).parent.length = s.parent.length := by
  cases q with
  | find i => exact length_parent_find s i
  | union i j => exact length_parent_union s i j

theorem length_parent_requestAll (s : DisjointSet) (requests : List Request) :
    (s.requestAll requests).parent.length = s.parent.length := by
  induction requests generalizing s with
  | nil => rfl
  | cons q rest ih => exact (ih _).trans (length_parent_request s q)

theorem eqvGen_le {α : Type} {r p : α → α → Prop} (h : ∀ a b, r a b → Relation.EqvGen p a b)
    {a b : α} (hab : Relation.EqvGen r a b) : Relation.EqvGen p a b := by
  induction hab with
  | rel a b hab => exact h a b hab
  | refl a => exact .refl a
  | symm a b _ ih => exact ih.symm
  | trans a b c _ _ ih ih' => exact ih.trans _ _ _ ih'

/-- Numbers that have one root, or are joined by one of the pairs. -/
def Links (rep : Nat → Nat) (pairs : List (Nat × Nat)) (k l : Nat) : Prop :=
  rep k = rep l ∨ (k, l) ∈ pairs

theorem links_nil_iff {rep : Nat → Nat} {k l : Nat} :
    Relation.EqvGen (Links rep []) k l ↔ rep k = rep l := by
  constructor
  · intro h
    induction h with
    | rel a b hab => simpa [Links] using hab
    | refl a => rfl
    | symm a b _ ih => exact ih.symm
    | trans a b c _ _ ih ih' => exact ih.trans ih'
  · intro h
    exact .rel _ _ (Or.inl h)

/-- Pairs may be taken in one after the other. -/
theorem links_append_iff {rep rep' : Nat → Nat} {pairs : List (Nat × Nat)}
    (h : ∀ k l, rep' k = rep' l ↔ Relation.EqvGen (Links rep pairs) k l)
    {more : List (Nat × Nat)} {k l : Nat} :
    Relation.EqvGen (Links rep' more) k l ↔ Relation.EqvGen (Links rep (pairs ++ more)) k l := by
  constructor
  · refine eqvGen_le fun a b hab => ?_
    rcases hab with hab | hab
    · refine eqvGen_le (fun c d hcd => .rel _ _ ?_) ((h a b).1 hab)
      exact hcd.imp_right (List.mem_append_left _)
    · exact .rel _ _ (Or.inr (List.mem_append_right _ hab))
  · refine eqvGen_le fun a b hab => .rel _ _ ?_
    rcases hab with hab | hab
    · exact Or.inl ((h a b).2 (.rel _ _ (Or.inl hab)))
    · rcases List.mem_append.1 hab with hab | hab
      · exact Or.inl ((h a b).2 (.rel _ _ (Or.inr hab)))
      · exact Or.inr hab

/-- One pair connects what it merges. -/
theorem merged_iff_links {rep : Nat → Nat} {i j k l : Nat} :
    Merged rep i j k l ↔ Relation.EqvGen (Links rep [(i, j)]) k l := by
  have hpair : Relation.EqvGen (Links rep [(i, j)]) i j := .rel _ _ (Or.inr (by simp))
  have hsame : ∀ c d, rep c = rep d → Relation.EqvGen (Links rep [(i, j)]) c d :=
    fun c d hcd => .rel _ _ (Or.inl hcd)
  constructor
  · rintro (hkl | ⟨hk, hl⟩ | ⟨hk, hl⟩)
    · exact hsame k l hkl
    · exact ((hsame k i hk).trans _ _ _ hpair).trans _ _ _ (hsame j l hl.symm)
    · exact ((hsame k j hk).trans _ _ _ hpair.symm).trans _ _ _ (hsame i l hl.symm)
  · intro h
    induction h with
    | rel a b hab =>
        rcases hab with hab | hab
        · exact Or.inl hab
        · obtain ⟨rfl, rfl⟩ := Prod.mk.inj (List.mem_singleton.1 hab)
          exact Or.inr (Or.inl ⟨rfl, rfl⟩)
    | refl a => exact Or.inl rfl
    | symm a b _ ih => unfold Merged at ih ⊢; omega
    | trans a b c _ _ ih ih' => unfold Merged at ih ih' ⊢; omega

/-- A request joins what its pair connects, and nothing else. -/
theorem Represents.request (h : Represents s rep) {q : Request} (hq : q.Within s.parent.length) :
    ∃ rep', Represents (s.request q) rep' ∧ ∀ k l, rep' k = rep' l ↔
      Relation.EqvGen (Links rep q.pairs) k l := by
  cases q with
  | find i => exact ⟨rep, h.find hq, fun k l => links_nil_iff.symm⟩
  | union i j =>
      obtain ⟨rep', hrep, hmerged⟩ := h.union hq.1 hq.2
      exact ⟨rep', hrep, fun k l => (hmerged k l).trans merged_iff_links⟩

/-- After any requests two numbers have one root exactly when the pairs connect their classes. -/
theorem Represents.requestAll (h : Represents s rep) {requests : List Request}
    (hrequests : ∀ q ∈ requests, q.Within s.parent.length) :
    ∃ rep', Represents (s.requestAll requests) rep' ∧ ∀ k l, rep' k = rep' l ↔
      Relation.EqvGen (Links rep (requests.flatMap (·.pairs))) k l := by
  induction requests generalizing s rep with
  | nil => exact ⟨rep, h, fun k l => links_nil_iff.symm⟩
  | cons q rest ih =>
      obtain ⟨hq, hrest⟩ := List.forall_mem_cons.1 hrequests
      obtain ⟨rep', hrep, hiff⟩ := h.request hq
      rw [← length_parent_request s q] at hrest
      obtain ⟨rep'', hall, hiff'⟩ := ih hrep hrest
      refine ⟨rep'', hall, fun k l => ?_⟩
      rw [List.flatMap_cons]
      exact (hiff' k l).trans (links_append_iff hiff)

/-- From numbers in classes of their own, requests join exactly the numbers their pairs connect. -/
theorem exists_represents_requestAll {size : Nat} {requests : List Request}
    (hrequests : ∀ q ∈ requests, q.Within size) :
    ∃ rep, Represents ((singletons size).requestAll requests) rep ∧ ∀ k l, rep k = rep l ↔
      Relation.EqvGen (fun k l => (k, l) ∈ requests.flatMap (·.pairs)) k l := by
  have hlength : (singletons size).parent.length = size := List.length_range
  rw [← hlength] at hrequests
  obtain ⟨rep, hrep, hiff⟩ := (represents_singletons size).requestAll hrequests
  refine ⟨rep, hrep, fun k l => (hiff k l).trans ⟨eqvGen_le ?_, eqvGen_le ?_⟩⟩
  · rintro a b (rfl | hab)
    · exact .refl _
    · exact .rel _ _ hab
  · intro a b hab
    exact .rel _ _ (Or.inr hab)

/-! ## Joining many pairs -/

theorem unionAll_eq_requestAll (s : DisjointSet) (pairs : List (Nat × Nat)) :
    s.unionAll pairs = s.requestAll (pairs.map fun pair => .union pair.1 pair.2) := by
  rw [requestAll, List.foldl_map]
  rfl

/-- From numbers in classes of their own, pairs join exactly the numbers they connect. -/
theorem exists_represents_unionAll {size : Nat} {pairs : List (Nat × Nat)}
    (hpairs : ∀ pair ∈ pairs, pair.1 < size ∧ pair.2 < size) :
    ∃ rep, Represents ((singletons size).unionAll pairs) rep ∧ ∀ k l, rep k = rep l ↔
      Relation.EqvGen (fun k l => (k, l) ∈ pairs) k l := by
  have hrequests : ∀ q ∈ pairs.map (fun pair => Request.union pair.1 pair.2), q.Within size := by
    intro q hq
    obtain ⟨pair, hpair, rfl⟩ := List.mem_map.1 hq
    exact hpairs pair hpair
  have hjoined : (pairs.map fun pair => Request.union pair.1 pair.2).flatMap (·.pairs) = pairs := by
    rw [List.flatMap_map]
    exact List.flatMap_singleton' pairs
  obtain ⟨rep, hrep, hiff⟩ := exists_represents_requestAll hrequests
  rw [hjoined] at hiff
  rw [unionAll_eq_requestAll]
  exact ⟨rep, hrep, hiff⟩

theorem length_parent_unionAll (s : DisjointSet) (pairs : List (Nat × Nat)) :
    (s.unionAll pairs).parent.length = s.parent.length := by
  rw [unionAll_eq_requestAll, length_parent_requestAll]

end TabularView.DisjointSet
