import TabularView.Proofs.Batch.Applying
import TabularView.Proofs.Batch.Arrival
import TabularView.Proofs.Fallible

set_option autoImplicit false

/-! # Rejected files

An operation that does not fit is recorded as a problem, and its file is skipped. Nothing else comes
of it: a batch that succeeds has the same result, but for its problems, if the files that were
rejected are left out from the start (`Ingestor.ingest_withoutRejected`).

The same upload may come twice in a batch and fit only once. So files are told apart here by their
places in the order of arrival, and are sorted together with these (`Upload.queue`). -/

namespace TabularView

/-! ## Rejections -/

/-- The kinds of failure by which an operation is rejected. -/
def ErrorKind.rejections : List ErrorKind :=
  [.tableAlreadyExists, .tableDoesNotExist, .fileAlreadyExists, .invalidFieldValue]

theorem Column.kind_of_merge_eq_error {current added : Column} {f : Failure}
    (h : current.merge added = .error f) : f.kind = .invalidFieldValue := by
  rw [Column.merge] at h
  split at h
  · cases h
    rfl
  · split at h
    · cases h
      rfl
    · cases h

theorem kind_of_mergeColumns_eq_error {currents addeds : List Column} {f : Failure}
    (h : mergeColumns currents addeds = .error f) : f.kind = .invalidFieldValue := by
  induction currents generalizing addeds with
  | nil => cases h
  | cons current currents ih =>
      cases addeds with
      | nil => cases h
      | cons added addeds =>
          rw [mergeColumns] at h
          rcases bind_eq_error_iff.1 h with hcolumn | ⟨column, _, h⟩
          · exact Column.kind_of_merge_eq_error hcolumn
          · rcases bind_eq_error_iff.1 h with hcolumns | ⟨columns, _, h⟩
            · exact ih hcolumns
            · cases h

theorem TableStats.kind_of_append_eq_error {existing incoming : TableStats} {f : Failure}
    (h : existing.append incoming = .error f) :
    f.kind = .fileAlreadyExists ∨ f.kind = .invalidFieldValue := by
  rw [append] at h
  split at h
  · cases h
    exact Or.inl rfl
  · split at h
    · cases h
      exact Or.inr rfl
    · rcases bind_eq_error_iff.1 h with hcolumns | ⟨columns, _, h⟩
      · exact Or.inr (kind_of_mergeColumns_eq_error hcolumns)
      · cases h

namespace BatchState

variable {s : BatchState} {table : String} {operation : FileOperation} {stats : TableStats}

/-- An operation that fails is rejected. -/
theorem kind_of_operate_eq_error {f : Failure} (h : s.operate table operation stats = .error f) :
    f.kind ∈ ErrorKind.rejections := by
  have htable : (Failure.noSuchTable table).kind ∈ ErrorKind.rejections := by
    simp [Failure.kind, ErrorKind.rejections]
  unfold operate at h
  split at h
  · cases h
  · cases h
    exact htable
  · cases h
    simp [Failure.kind, ErrorKind.rejections]
  · cases h
  · cases h
  · cases h
    exact htable
  · split at h
    · cases h
    · next g hg =>
        cases h
        rcases TableStats.kind_of_append_eq_error hg with hkind | hkind
        · simp [hkind, ErrorKind.rejections]
        · simp [hkind, ErrorKind.rejections]
  · cases h
    exact htable

/-- The operation of a loaded file is rejected. -/
def rejects (s : BatchState) (u : Upload) (loaded : Loaded) : Bool :=
  match s.operate u.targetTable u.operation (loaded.stats u) with
  | .ok _ => false
  | .error f => ErrorKind.rejections.contains f.kind

theorem rejects_eq_false_iff {u : Upload} {loaded : Loaded} :
    s.rejects u loaded = false ↔
      ∃ after, s.operate u.targetTable u.operation (loaded.stats u) = .ok after := by
  rw [rejects]
  cases ho : s.operate u.targetTable u.operation (loaded.stats u) with
  | ok after => simp
  | error f => simp [kind_of_operate_eq_error ho]

theorem rejects_eq_true_iff {u : Upload} {loaded : Loaded} :
    s.rejects u loaded = true ↔
      ∃ f, s.operate u.targetTable u.operation (loaded.stats u) = .error f := by
  rw [rejects]
  cases ho : s.operate u.targetTable u.operation (loaded.stats u) with
  | ok after => simp
  | error f => simp [kind_of_operate_eq_error ho]

/-! ## States with fewer problems -/

/-- A state like another one, but with some of its problems left out. -/
structure Quieter (quiet s : BatchState) : Prop where
  same : quiet = s.withProblems quiet.problems
  problems : quiet.problems.Sublist s.problems

theorem Quieter.refl (s : BatchState) : Quieter s s :=
  ⟨rfl, List.Sublist.refl _⟩

variable {quiet : BatchState} {u : Upload} {loaded : Loaded}

/-- A file that is not rejected does the same to both states. -/
theorem Quieter.apply (h : Quieter quiet s) (hrejects : s.rejects u loaded = false) :
    Quieter (quiet.apply u loaded) (s.apply u loaded) := by
  obtain ⟨after, hafter⟩ := rejects_eq_false_iff.1 hrejects
  have hquiet : quiet.operate u.targetTable u.operation (loaded.stats u) =
      .ok (after.withProblems quiet.problems) := by
    rw [h.same, operate_withProblems, hafter]
    rfl
  rw [apply_of_operate_eq_ok hafter, apply_of_operate_eq_ok hquiet]
  exact ⟨rfl, h.problems.append (List.Sublist.refl _)⟩

/-- A file that is rejected does nothing but add problems. -/
theorem Quieter.skip (h : Quieter quiet s) (hrejects : s.rejects u loaded = true) :
    Quieter quiet (s.apply u loaded) := by
  obtain ⟨f, hf⟩ := rejects_eq_true_iff.1 hrejects
  rw [apply_of_operate_eq_error hf, List.append_assoc]
  exact ⟨h.same, h.problems.trans (List.sublist_append_left ..)⟩

end BatchState

/-! ## Files and their places -/

namespace Upload

/-- The order in which files are applied, whatever their places. -/
def comparePlaced (a b : Upload × Nat) : Ordering :=
  a.1.compare b.1

instance : Std.TransCmp comparePlaced :=
  Sorting.transCmp_on Upload.compare Prod.fst

/-- The files in the order in which they are applied, each with its place among the uploads. -/
def queue (uploads : List Upload) : List (Upload × Nat) :=
  Sorting.sortBy comparePlaced uploads.zipIdx

/-- Sorting files together with their places sorts the files. -/
theorem map_fst_sortBy (placed : List (Upload × Nat)) :
    (Sorting.sortBy comparePlaced placed).map (·.1) = sort (placed.map (·.1)) :=
  List.map_mergeSort fun _ _ _ _ => rfl

theorem map_fst_queue (uploads : List Upload) : (queue uploads).map (·.1) = sort uploads := by
  rw [queue, map_fst_sortBy, List.zipIdx_map_fst]

theorem nodup_queue (uploads : List Upload) : (queue uploads).Nodup := by
  have hplaces : (uploads.zipIdx.map (·.2)).Nodup := by
    rw [List.zipIdx_map_snd]
    exact List.nodup_range'
  exact (List.mergeSort_perm _ _).nodup_iff.2 (List.Nodup.of_map _ hplaces)

end Upload

/-- The elements of a list that are in one of its sublists make up the sublist. -/
theorem filter_contains_of_sublist {α : Type} [BEq α] [LawfulBEq α] {l' l : List α}
    (h : l'.Sublist l) (hl : l.Nodup) : l.filter (fun a => l'.contains a) = l' := by
  induction h with
  | slnil => rfl
  | cons a h ih =>
      obtain ⟨ha, hl⟩ := List.nodup_cons.1 hl
      rw [List.filter_cons_of_neg (by simpa using fun hmem => ha (h.subset hmem)), ih hl]
  | cons_cons a h ih =>
      next l' l =>
      obtain ⟨ha, hl⟩ := List.nodup_cons.1 hl
      have hrest : l.filter (fun b => (a :: l').contains b) =
          l.filter (fun b => l'.contains b) := by
        refine List.filter_congr fun b hb => ?_
        have hne : b ≠ a := fun heq => ha (heq ▸ hb)
        simp [hne]
      rw [List.filter_cons_of_pos (by simp), hrest, ih hl]

namespace Ingestor

variable {i : Ingestor} {uploads : List Upload} {prior : List TableStats}

/-- Of files that are applied in order, those that are not rejected. -/
def accepted (i : Ingestor) (s : BatchState) : List (Upload × Nat) → List (Upload × Nat)
  | [] => []
  | placed :: rest =>
    match i.load placed.1 with
    | .error _ => []
    | .ok loaded =>
      let later := accepted i (s.apply placed.1 loaded) rest
      if s.rejects placed.1 loaded then later else placed :: later

/-- The files of a batch as they arrived, without those that are rejected when they are applied. -/
def withoutRejected (i : Ingestor) (uploads : List Upload) (prior : List TableStats) :
    List Upload :=
  (uploads.zipIdx.filter fun placed =>
    (i.accepted (.start prior) (Upload.queue uploads)).contains placed).map (·.1)

theorem accepted_sublist (i : Ingestor) (s : BatchState) (placed : List (Upload × Nat)) :
    (i.accepted s placed).Sublist placed := by
  induction placed generalizing s with
  | nil => exact List.Sublist.refl _
  | cons first rest ih =>
      rw [accepted]
      split
      · exact List.nil_sublist _
      · dsimp only
        split
        · exact (ih _).cons _
        · exact (ih _).cons_cons _

/-- The files that are left are applied in the same order as before. -/
theorem sort_withoutRejected (i : Ingestor) (uploads : List Upload) (prior : List TableStats) :
    Upload.sort (i.withoutRejected uploads prior) =
      (i.accepted (.start prior) (Upload.queue uploads)).map (·.1) := by
  rw [withoutRejected, ← Upload.map_fst_sortBy, ← Sorting.filter_sortBy]
  exact congrArg _
    (filter_contains_of_sublist (i.accepted_sublist _ _) (Upload.nodup_queue uploads))

/-- Files that can all be loaded lead to the same tables and marks without the rejected ones. -/
theorem applyAll_accepted {quiet s after : BatchState} (h : BatchState.Quieter quiet s)
    {placed : List (Upload × Nat)} (happlied : i.applyAll s (placed.map (·.1)) = (after, none)) :
    ∃ quietAfter, i.applyAll quiet ((i.accepted s placed).map (·.1)) = (quietAfter, none) ∧
      BatchState.Quieter quietAfter after := by
  induction placed generalizing quiet s with
  | nil =>
      cases happlied
      exact ⟨quiet, rfl, h⟩
  | cons first rest ih =>
      rw [List.map_cons, applyAll] at happlied
      rw [accepted]
      cases hload : i.load first.1 with
      | error f =>
          rw [hload] at happlied
          cases happlied
      | ok loaded =>
          rw [hload] at happlied
          dsimp only at happlied ⊢
          cases hrejects : s.rejects first.1 loaded with
          | true =>
              rw [if_pos rfl]
              exact ih (h.skip hrejects) happlied
          | false =>
              rw [if_neg (by decide), List.map_cons, applyAll, hload]
              exact ih (h.apply hrejects) happlied

/-! ## Results -/

/-- A batch that succeeds succeeds without its rejected files, with the same result except that
some of its problems are missing. -/
theorem ingest_withoutRejected (i : Ingestor) (cancelled : Bool) (uploads : List Upload)
    (prior : List TableStats) (h : (i.ingest cancelled uploads prior).status = .ok) :
    let result := i.ingest cancelled uploads prior
    let again := i.ingest cancelled (i.withoutRejected uploads prior) prior
    again = { result with problems := again.problems } ∧
      again.problems.Sublist result.problems := by
  obtain ⟨r, hr, heq⟩ := exists_succeeds_of_status_eq_ok h
  have hcancelled : cancelled = false :=
    ((i.isOk_ingest_iff _ _ _).1 (by rw [heq, isOk_resultOf])).1
  subst hcancelled
  have happlied := hr.applied
  rw [← Upload.map_fst_queue] at happlied
  obtain ⟨quiet, hquiet, hless⟩ := applyAll_accepted (.refl _) happlied
  -- what is planned depends on tables and marks alone, and these are the same
  have hagain : i.Succeeds (i.withoutRejected uploads prior) prior { r with state := quiet } := by
    have hsame := hless.same
    refine ⟨?_, ?_, ?_, hr.viewed, ?_⟩
    · rw [sort_withoutRejected]
      exact hquiet
    · rw [hsame]
      exact hr.remains
    · rw [hsame]
      exact hr.joined
    · rw [hsame]
      exact hr.stated
  rw [heq, ingest_eq_of_succeeds hagain]
  refine ⟨?_, hless.problems.append (List.Sublist.refl _)⟩
  simp only [resultOf]
  rw [hless.same]
  rfl

/-- Of one upload that comes twice, only the first adds its table. The second is rejected, as are an
append with another column and the deletion of a table that is not there. -/
theorem ingest_withoutRejected_twice :
    let add : Upload := .ofText "p.csv" "k\n1\n"
    let misfit : Upload := .ofText "z.csv" "x\n1\n" .append (some "p")
    let uploads : List Upload := [add, add, misfit, .deletion "q.csv"]
    let result := plain.ingest false uploads []
    result.status = .ok ∧ plain.withoutRejected uploads [] = [add] ∧
      plain.ingest false [add] [] =
        { result with problems := (plain.ingest false [add] []).problems } := by
  intro add misfit uploads result
  have hqueue : Upload.queue uploads = uploads.zipIdx :=
    List.mergeSort_of_pairwise (by decide +kernel)
  have hsort : Upload.sort uploads = uploads := by
    rw [← Upload.map_fst_queue, hqueue, List.zipIdx_map_fst]
  have hok : result.status = .ok := by
    show (plain.ingest false uploads []).status = .ok
    rw [ingest, hsort]
    decide +kernel
  have hleft : plain.withoutRejected uploads [] = [add] := by
    rw [withoutRejected, hqueue]
    decide +kernel
  obtain ⟨hsame, -⟩ := ingest_withoutRejected plain false uploads [] hok
  rw [hleft] at hsame
  exact ⟨hok, hleft, hsame⟩

end Ingestor

end TabularView
