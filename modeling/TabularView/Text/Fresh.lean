set_option autoImplicit false

/-! # Fresh names

A name that is taken gets a number: `name_1`, `name_2` and so on, the first that is free. Among one
more numbered name than there are names in use one must be free, so that many are tried. -/

namespace TabularView.Text

/-- A name with a number behind it. -/
def numbered (base : String) (k : Nat) : String :=
  base ++ "_" ++ toString k

/-- The first of the numbered names from `k` on that is not in use, `fuel` of them being tried. -/
def firstFree (used : List String) (base : String) : Nat → Nat → String
  | 0, k => numbered base k
  | fuel + 1, k =>
    if used.contains (numbered base k) then firstFree used base fuel (k + 1) else numbered base k

/-- The name itself if it is not in use, else the first free numbered one. -/
def fresh (used : List String) (base : String) : String :=
  if used.contains base then firstFree used base used.length 1 else base

theorem fresh_of_not_mem {used : List String} {base : String} (h : base ∉ used) :
    fresh used base = base := by
  simp [fresh, h]

/-- Names in order, each made fresh with respect to the ones before it. -/
def freshen (used : List String) : List String → List String
  | [] => []
  | name :: rest =>
    let chosen := fresh used name
    chosen :: freshen (chosen :: used) rest

theorem length_freshen (used names : List String) : (freshen used names).length = names.length := by
  induction names generalizing used with
  | nil => rfl
  | cons name rest ih => simp [freshen, ih]

/-- Names of which no two are the same and none is in use stay as they are. -/
theorem freshen_append {used names : List String} (hnodup : names.Nodup)
    (hfree : ∀ name ∈ names, name ∉ used) (rest : List String) :
    freshen used (names ++ rest) = names ++ freshen (names.reverse ++ used) rest := by
  induction names generalizing used with
  | nil => rfl
  | cons name names ih =>
    rw [List.nodup_cons] at hnodup
    rw [List.forall_mem_cons] at hfree
    have hlater : ∀ other ∈ names, other ∉ name :: used := by
      intro other hother hmem
      rcases List.mem_cons.1 hmem with rfl | hused
      · exact hnodup.1 hother
      · exact hfree.2 other hother hused
    rw [List.cons_append, freshen, fresh_of_not_mem hfree.1, ih hnodup.2 hlater,
      List.reverse_cons, List.append_assoc]
    rfl

end TabularView.Text
