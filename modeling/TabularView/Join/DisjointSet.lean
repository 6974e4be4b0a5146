set_option autoImplicit false

/-! # Disjoint sets

A partition of the numbers below a size. Each number points to a parent; one that points to itself
is a root and stands for its class. Joining two classes puts the root of smaller rank under the
other, and looking a root up points every number on the way directly at it.

A walk to a root takes fewer steps than there are numbers, which is the bound given to it.
`rank_find` says that looking up leaves ranks alone, `length_parent_union` that the size never
changes. -/

namespace TabularView

/-- Parents and ranks of the numbers below the size. -/
structure DisjointSet where
  parent : List Nat
  rank : List Nat
deriving DecidableEq, Repr

namespace DisjointSet

/-- Every number in a class of its own. -/
def singletons (size : Nat) : DisjointSet where
  parent := List.range size
  rank := List.replicate size 0

/-- The parent of a number; a number beyond the size is a root. -/
def parentOf (s : DisjointSet) (i : Nat) : Nat :=
  s.parent.getD i i

/-- A number that stands for its class. -/
def IsRoot (s : DisjointSet) (i : Nat) : Prop :=
  s.parentOf i = i

/-- The root reached from a number in at most `fuel` steps. -/
def walk (s : DisjointSet) : Nat → Nat → Nat
  | 0, i => i
  | fuel + 1, i => if s.parentOf i = i then i else walk s fuel (s.parentOf i)

/-- The root of a number's class. -/
def root (s : DisjointSet) (i : Nat) : Nat :=
  s.walk s.parent.length i

/-- Points the numbers on the way from `i` to `r` directly at `r`. -/
def compress (r : Nat) : Nat → Nat → DisjointSet → DisjointSet
  | 0, _, s => s
  | fuel + 1, i, s =>
    if s.parentOf i = r then s
    else compress r fuel (s.parentOf i) { s with parent := s.parent.set i r }

/-- The root of a number's class, and the partition with shorter ways to it. -/
def find (s : DisjointSet) (i : Nat) : Nat × DisjointSet :=
  let r := s.root i
  (r, compress r s.parent.length i s)

/-- Puts one root under another, by rank; of two equal ranks the first stays a root and gains
one. -/
def link (s : DisjointSet) (a b : Nat) : DisjointSet :=
  let ra := s.rank.getD a 0
  let rb := s.rank.getD b 0
  if ra < rb then { s with parent := s.parent.set a b }
  else if rb < ra then { s with parent := s.parent.set b a }
  else { parent := s.parent.set b a, rank := s.rank.set a (ra + 1) }

/-- The partition with the classes of two numbers joined. -/
def union (s : DisjointSet) (i j : Nat) : DisjointSet :=
  let (a, s) := s.find i
  let (b, s) := s.find j
  if a = b then s else s.link a b

/-- The partition with all these pairs joined, from first to last. -/
def unionAll (s : DisjointSet) (pairs : List (Nat × Nat)) : DisjointSet :=
  pairs.foldl (fun s pair => s.union pair.1 pair.2) s

/-! ## What the operations leave alone -/

theorem rank_compress (r fuel i : Nat) (s : DisjointSet) :
    (compress r fuel i s).rank = s.rank := by
  induction fuel generalizing i s with
  | zero => rfl
  | succ fuel ih =>
    rw [compress]
    split
    · rfl
    · rw [ih]

theorem length_parent_compress (r fuel i : Nat) (s : DisjointSet) :
    (compress r fuel i s).parent.length = s.parent.length := by
  induction fuel generalizing i s with
  | zero => rfl
  | succ fuel ih =>
    rw [compress]
    split
    · rfl
    · rw [ih, List.length_set]

theorem rank_find (s : DisjointSet) (i : Nat) : (s.find i).2.rank = s.rank :=
  rank_compress _ _ _ s

theorem length_parent_find (s : DisjointSet) (i : Nat) :
    (s.find i).2.parent.length = s.parent.length :=
  length_parent_compress _ _ _ s

theorem length_parent_union (s : DisjointSet) (i j : Nat) :
    (s.union i j).parent.length = s.parent.length := by
  have h : ((s.find i).2.find j).2.parent.length = s.parent.length := by
    rw [length_parent_find, length_parent_find]
  simp only [union, link]
  split
  · exact h
  · split
    · rw [List.length_set, h]
    · split <;> rw [List.length_set, h]

end DisjointSet

end TabularView
