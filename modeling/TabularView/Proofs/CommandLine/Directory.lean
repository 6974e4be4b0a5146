import TabularView.CommandLine.Directory

set_option autoImplicit false

/-! # What was written can be read

A text that was written under a path is what the path leads to from then on (`read_of_write`): new
content changes neither the way to its own name nor what a name on that way is. -/

namespace TabularView.Directory

variable {d : Directory} {name other : List String} {bytes : Bytes}

/-! ## A new content -/

theorem file?_put_self : (d.put name bytes).file? name = some bytes := by
  simp [file?, put]

theorem file?_put_of_ne (h : other ≠ name) : (d.put name bytes).file? other = d.file? other := by
  have hkept : (fun file : List String × Bytes => decide (file.1 ≠ name ∧ file.1 = other)) =
      fun file => file.1 == other := by
    funext file
    by_cases hfile : file.1 = other
    · simp [hfile, h]
    · simp [hfile]
  simp only [file?, put, List.find?_cons, beq_eq_false_iff_ne.2 h.symm, List.find?_filter,
    decide_eq_true_eq, beq_iff_eq, hkept]

/-- No directory is lost. -/
theorem isDirectory_put (h : d.isDirectory other = true) :
    (d.put name bytes).isDirectory other = true := by
  unfold isDirectory at h ⊢
  obtain ⟨file, hfile, hbelow⟩ := List.any_eq_true.1 h
  by_cases hname : file.1 = name
  · exact List.any_eq_true.2 ⟨(name, bytes), List.mem_cons_self .., hname ▸ hbelow⟩
  · refine List.any_eq_true.2 ⟨file, List.mem_cons_of_mem _ ?_, hbelow⟩
    exact List.mem_filter.2 ⟨hfile, decide_eq_true hname⟩

/-- The name under which a place takes a text: that of a file, or one that only has to be added. -/
def Place.name? : Place → Option (List String)
  | .file name _ => some name
  | .missing name [] => some name
  | _ => none

/-- Where a path leads to a place that takes a text, there is a file or no directory. -/
theorem file?_ne_none_or_of_follow {here parts : List String} {place : Place}
    (h : d.follow here parts = .ok place) (hname : place.name? = some name) :
    d.file? name ≠ none ∨ d.isDirectory name = false := by
  fun_induction d.follow here parts with
  | case1 | case3 =>
      cases h
      cases hname
  | case2 here part rest hstill ih => exact ih h
  | case5 here rest hhere hpart ih => exact ih h
  | case6 here part hstill hpart there old hfile =>
      cases h
      rw [← Option.some.inj hname, hfile]
      exact .inl (Option.some_ne_none old)
  | case8 here part rest hstill hpart there hfile hdirectory ih => exact ih h
  | case9 here part rest hstill hpart there hfile hdirectory =>
      cases h
      cases rest with
      | nil =>
          rw [← Option.some.inj hname]
          exact .inr (Bool.eq_false_iff.2 hdirectory)
      | cons next rest => cases hname
  | case4 | case7 => cases h

/-- A path leads to what was put at its end. -/
theorem follow_put {here parts : List String} {place : Place}
    (h : d.follow here parts = .ok place) (hname : place.name? = some name) :
    (d.put name bytes).follow here parts = .ok (.file name bytes) := by
  fun_induction d.follow here parts with
  | case1 | case3 =>
      cases h
      cases hname
  | case2 here part rest hstill ih =>
      rw [follow, if_pos hstill]
      exact ih h
  | case5 here rest hhere hpart ih =>
      rw [follow, if_neg hpart, if_pos rfl, if_neg hhere]
      exact ih h
  | case6 here part hstill hpart there old hfile =>
      cases h
      rw [follow, if_neg hstill, if_neg hpart, ← Option.some.inj hname]
      dsimp only
      rw [file?_put_self]
      rfl
  | case8 here part rest hstill hpart there hfile hdirectory ih =>
      have hne : there ≠ name := by
        intro hthere
        rcases file?_ne_none_or_of_follow h hname with hsome | hnone
        · exact hsome (hthere ▸ hfile)
        · rw [← hthere, hdirectory] at hnone
          cases hnone
      rw [follow, if_neg hstill, if_neg hpart]
      dsimp only
      rw [file?_put_of_ne hne, hfile]
      dsimp only
      rw [if_pos (isDirectory_put hdirectory)]
      exact ih h
  | case9 here part rest hstill hpart there hfile hdirectory =>
      cases h
      cases rest with
      | nil =>
          rw [follow, if_neg hstill, if_neg hpart, ← Option.some.inj hname]
          dsimp only
          rw [file?_put_self]
          rfl
      | cons next rest => cases hname
  | case4 | case7 => cases h

theorem locate_put {path : String} {place : Place} (h : d.locate path = .ok place)
    (hname : place.name? = some name) :
    (d.put name bytes).locate path = .ok (.file name bytes) := by
  unfold locate at h ⊢
  dsimp only at h ⊢
  split at h
  · split at h
    · cases h
      cases hname
    · cases h
  · rename_i hroot
    rw [if_neg hroot]
    exact follow_put h hname

/-- A text is written at the end of its path. -/
theorem exists_of_write_eq_ok {path text : String} {after : Directory}
    (h : d.write path text = .ok after) : ∃ place name, d.locate path = .ok place ∧
      place.name? = some name ∧ after = d.put name text.toUTF8.toList := by
  unfold write at h
  split at h
  · rename_i name old hplace
    exact ⟨_, name, hplace, rfl, (Except.ok.inj h).symm⟩
  · cases h
  · rename_i name hplace
    exact ⟨_, name, hplace, rfl, (Except.ok.inj h).symm⟩
  · split at h <;> cases h
  · cases h

/-- What was written under a path is read under it. -/
theorem read_of_write {path text : String} {after : Directory}
    (h : d.write path text = .ok after) : after.read path = .ok text.toUTF8.toList := by
  obtain ⟨place, name, hplace, hname, rfl⟩ := exists_of_write_eq_ok h
  rw [read, locate_put hplace hname]

end TabularView.Directory
