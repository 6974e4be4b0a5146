import TabularView.Proofs.Batch.Separation

set_option autoImplicit false

/-! # Submitting a batch again

A batch whose files all add tables, or all replace tables, can be submitted again: over the tables
that it led to, it leads to these tables once more, and to the same statements
(`Ingestor.ingest_again`).

The second time, files that add find their tables there, and all of them are rejected. Files that
replace find the tables that they found the first time, replace the same ones, and leave the same
marks; a table that they replaced ends up with the last of its files both times
(`BatchState.Repeats`). -/

namespace TabularView

/-! ## One file -/

namespace BatchState

variable {s s' : BatchState} {u : Upload}

/-- A file that adds changes nothing but its own table, and this only if it is not there. -/
theorem apply_add (s : BatchState) (loaded : Loaded) (hu : u.operation = .add) :
    (s.apply u loaded).rebuilt = s.rebuilt ∧ (s.apply u loaded).deleted = s.deleted ∧
      ∀ name, (s.apply u loaded).tables.find? name =
        if name = u.targetTable then (s.tables.find? name).or (some (loaded.stats u))
        else s.tables.find? name := by
  cases hfind : s.tables.find? u.targetTable with
  | none =>
      have ho : s.operate u.targetTable u.operation (loaded.stats u) =
          .ok { s with tables := s.tables.insert u.targetTable (loaded.stats u) } := by
        rw [operate_eq_change, hu, hfind]
        rfl
      rw [apply_of_operate_eq_ok ho]
      refine ⟨rfl, rfl, fun name => ?_⟩
      show (s.tables.insert u.targetTable (loaded.stats u)).find? name = _
      rw [TableMap.find?_insert]
      split
      · next heq => rw [heq, hfind, Option.none_or]
      · rfl
  | some t =>
      have ho : s.operate u.targetTable u.operation (loaded.stats u) =
          .error (.tableExists u.targetTable) := by
        rw [operate_eq_change, hu, hfind]
        rfl
      rw [apply_of_operate_eq_error ho]
      refine ⟨rfl, rfl, fun name => ?_⟩
      show s.tables.find? name = _
      split
      · next heq => rw [heq, hfind, Option.some_or]
      · rfl

/-- A file that replaces changes nothing but its own table, and this only if it is there. -/
theorem apply_replace (s : BatchState) (loaded : Loaded) (hu : u.operation = .replace) :
    (s.apply u loaded).rebuilt =
        (if (s.tables.find? u.targetTable).isSome then [u.targetTable] else []) ++ s.rebuilt ∧
      (s.apply u loaded).deleted = s.deleted ∧
      ∀ name, (s.apply u loaded).tables.find? name =
        if name = u.targetTable then (s.tables.find? name).map fun _ => loaded.stats u
        else s.tables.find? name := by
  cases hfind : s.tables.find? u.targetTable with
  | none =>
      have ho : s.operate u.targetTable u.operation (loaded.stats u) =
          .error (.noSuchTable u.targetTable) := by
        rw [operate_eq_change, hu, hfind]
        rfl
      rw [apply_of_operate_eq_error ho]
      refine ⟨rfl, rfl, fun name => ?_⟩
      show s.tables.find? name = _
      split
      · next heq => rw [heq, hfind, Option.map_none]
      · rfl
  | some t =>
      have ho : s.operate u.targetTable u.operation (loaded.stats u) =
          .ok { s with
            tables := s.tables.insert u.targetTable (loaded.stats u)
            rebuilt := u.targetTable :: s.rebuilt } := by
        rw [operate_eq_change, hu, hfind]
        rfl
      rw [apply_of_operate_eq_ok ho]
      refine ⟨rfl, rfl, fun name => ?_⟩
      show (s.tables.insert u.targetTable (loaded.stats u)).find? name = _
      rw [TableMap.find?_insert]
      split
      · next heq => rw [heq, hfind, Option.map_some]
      · rfl

/-! ## Replacing twice -/

/-- Two states in which the same files have replaced tables: the same tables are there and have been
marked, and those named by the files are equal. -/
structure Repeats (done : List String) (s s' : BatchState) : Prop where
  rebuilt : s.rebuilt = s'.rebuilt
  deleted : s.deleted = s'.deleted
  there : ∀ name, (s.tables.find? name).isSome = (s'.tables.find? name).isSome
  same : ∀ name ∈ done, s.tables.find? name = s'.tables.find? name

theorem Repeats.apply {done : List String} (h : Repeats done s s') (loaded : Loaded)
    (hu : u.operation = .replace) :
    Repeats (u.targetTable :: done) (s.apply u loaded) (s'.apply u loaded) := by
  obtain ⟨hrebuilt, hdeleted, hfind⟩ := apply_replace s loaded hu
  obtain ⟨hrebuilt', hdeleted', hfind'⟩ := apply_replace s' loaded hu
  refine ⟨?_, ?_, fun name => ?_, fun name hname => ?_⟩
  · rw [hrebuilt, hrebuilt', h.rebuilt, h.there]
  · rw [hdeleted, hdeleted', h.deleted]
  · rw [hfind, hfind']
    split
    · rw [Option.isSome_map, Option.isSome_map, h.there]
    · exact h.there name
  · rw [hfind, hfind']
    split
    · -- the same file in both, if there is a table at all
      have hfile : ∀ o : Option TableStats, (o.map fun _ => loaded.stats u) =
          if o.isSome then some (loaded.stats u) else none := by
        intro o
        cases o <;> rfl
      rw [hfile, hfile, h.there]
    · next hne => exact h.same name (List.mem_of_ne_of_mem hne hname)

end BatchState

/-! ## All files -/

namespace Ingestor

variable {i : Ingestor} {us : List Upload} {s after : BatchState}

/-- Files that can all be loaded are applied to any state. -/
theorem exists_applyAll_eq (s : BatchState) (hload : ∀ u ∈ us, ∃ loaded, i.load u = .ok loaded) :
    ∃ after, i.applyAll s us = (after, none) :=
  ⟨_, Prod.ext rfl (applyAll_snd_eq_none_iff.2 hload)⟩

theorem forall_load_of_applyAll (h : i.applyAll s us = (after, none)) :
    ∀ u ∈ us, ∃ loaded, i.load u = .ok loaded :=
  applyAll_snd_eq_none_iff.1 (by rw [h])

/-- After files that add, the tables of all of them are there, and nothing has been marked. -/
theorem applyAll_add (hadd : ∀ u ∈ us, u.operation = .add) (h : i.applyAll s us = (after, none)) :
    after.rebuilt = s.rebuilt ∧ after.deleted = s.deleted ∧
      (∀ name, (s.tables.find? name).isSome → (after.tables.find? name).isSome) ∧
      ∀ u ∈ us, (after.tables.find? u.targetTable).isSome := by
  induction us generalizing s with
  | nil =>
      cases h
      exact ⟨rfl, rfl, fun _ hname => hname, List.forall_mem_nil _⟩
  | cons u rest ih =>
      obtain ⟨hu, hrest⟩ := List.forall_mem_cons.1 hadd
      obtain ⟨⟨loaded, hloaded⟩, -⟩ := List.forall_mem_cons.1 (forall_load_of_applyAll h)
      rw [applyAll, hloaded] at h
      obtain ⟨hrebuilt, hdeleted, hkept, hthere⟩ := ih hrest h
      obtain ⟨hrebuilt', hdeleted', hfind⟩ := BatchState.apply_add s loaded hu
      refine ⟨hrebuilt.trans hrebuilt', hdeleted.trans hdeleted', fun name hname => ?_, ?_⟩
      · refine hkept name ?_
        rw [hfind]
        split
        · simp
        · exact hname
      · refine List.forall_mem_cons.2 ⟨hkept _ ?_, hthere⟩
        rw [hfind, if_pos rfl]
        simp

/-- Files that add to tables that are all there do nothing but add problems. -/
theorem applyAll_add_again (hadd : ∀ u ∈ us, u.operation = .add)
    (hthere : ∀ u ∈ us, (s.tables.find? u.targetTable).isSome)
    (hload : ∀ u ∈ us, ∃ loaded, i.load u = .ok loaded) :
    ∃ problems, i.applyAll s us = (s.withProblems problems, none) := by
  induction us generalizing s with
  | nil => exact ⟨s.problems, rfl⟩
  | cons u rest ih =>
      obtain ⟨hu, hrest⟩ := List.forall_mem_cons.1 hadd
      obtain ⟨hfound, hthere⟩ := List.forall_mem_cons.1 hthere
      obtain ⟨⟨loaded, hloaded⟩, hload⟩ := List.forall_mem_cons.1 hload
      obtain ⟨t, ht⟩ := Option.isSome_iff_exists.1 hfound
      have ho : s.operate u.targetTable u.operation (loaded.stats u) =
          .error (.tableExists u.targetTable) := by
        rw [BatchState.operate_eq_change, hu, ht]
        rfl
      rw [applyAll, hloaded]
      dsimp only
      rw [BatchState.apply_of_operate_eq_error ho]
      exact ih hrest hthere hload

/-- A table without files stays as it was. -/
theorem find?_applyAll_of_untouched (s : BatchState) {name : String}
    (hload : ∀ u ∈ us, ∃ loaded, i.load u = .ok loaded)
    (h : ∀ u ∈ us, u.targetTable ≠ name) :
    (i.applyAll s us).1.tables.find? name = s.tables.find? name := by
  have hnone : us.filter (·.targetTable == name) = [] :=
    List.filter_eq_nil_iff.2 fun u hu => by simpa using h u hu
  have hsame : BatchState.AgreesOn name s s := ⟨rfl, Iff.rfl, Iff.rfl⟩
  have hagrees := agreesOn_applyAll hload hsame
  rw [hnone] at hagrees
  exact hagrees.found

/-- Replacing leaves the same tables there. -/
theorem isSome_find?_applyAll (hreplace : ∀ u ∈ us, u.operation = .replace) (name : String) :
    ((i.applyAll s us).1.tables.find? name).isSome = (s.tables.find? name).isSome := by
  refine applyAll_induction (P := fun s' => (s'.tables.find? name).isSome =
    (s.tables.find? name).isSome) ?_ rfl
  intro s' u hu loaded _ hs'
  obtain ⟨-, -, hfind⟩ := BatchState.apply_replace s' loaded (hreplace u hu)
  rw [hfind, ← hs']
  split
  · exact Option.isSome_map
  · rfl

/-- What repeats before files that replace repeats after them, their own tables included. -/
theorem repeats_applyAll {done : List String} {s' : BatchState}
    (hreplace : ∀ u ∈ us, u.operation = .replace)
    (hload : ∀ u ∈ us, ∃ loaded, i.load u = .ok loaded) (h : BatchState.Repeats done s s') :
    ∃ done', (∀ u ∈ us, u.targetTable ∈ done') ∧ (∀ name ∈ done, name ∈ done') ∧
      BatchState.Repeats done' (i.applyAll s us).1 (i.applyAll s' us).1 := by
  induction us generalizing done s s' with
  | nil => exact ⟨done, List.forall_mem_nil _, fun _ hname => hname, h⟩
  | cons u rest ih =>
      obtain ⟨hu, hrest⟩ := List.forall_mem_cons.1 hreplace
      obtain ⟨⟨loaded, hloaded⟩, hload⟩ := List.forall_mem_cons.1 hload
      obtain ⟨done', htargets, hdone, hrepeats⟩ := ih hrest hload (h.apply loaded hu)
      rw [applyAll, applyAll, hloaded]
      refine ⟨done', ?_, ?_, hrepeats⟩
      · exact List.forall_mem_cons.2 ⟨hdone _ (List.mem_cons_self ..), htargets⟩
      · exact fun name hname => hdone name (List.mem_cons_of_mem _ hname)

/-- Files that replace, applied once more to the tables that they led to, lead to the same tables
and marks. -/
theorem applyAll_replace_again {s' again : BatchState} (hreplace : ∀ u ∈ us, u.operation = .replace)
    (h : i.applyAll s us = (after, none)) (hagain : i.applyAll s' us = (again, none))
    (htables : s'.tables = after.tables) (hrebuilt : s'.rebuilt = s.rebuilt)
    (hdeleted : s'.deleted = s.deleted) :
    again.rebuilt = after.rebuilt ∧ again.deleted = after.deleted ∧
      ∀ name, again.tables.find? name = after.tables.find? name := by
  have hload := forall_load_of_applyAll h
  have hbegin : BatchState.Repeats [] s' s := by
    refine ⟨hrebuilt, hdeleted, fun name => ?_, List.forall_mem_nil _⟩
    have hthere := isSome_find?_applyAll (i := i) (s := s) hreplace name
    rw [h] at hthere
    rw [htables]
    exact hthere
  obtain ⟨done, htargets, -, hrepeats⟩ := repeats_applyAll hreplace hload hbegin
  rw [h, hagain] at hrepeats
  refine ⟨hrepeats.rebuilt, hrepeats.deleted, fun name => ?_⟩
  by_cases hname : ∃ u ∈ us, u.targetTable = name
  · obtain ⟨u, hu, rfl⟩ := hname
    exact hrepeats.same _ (htargets u hu)
  · -- the second time it is the table that was left the first time
    have hnone : ∀ u ∈ us, u.targetTable ≠ name := fun u hu heq => hname ⟨u, hu, heq⟩
    have hkept := find?_applyAll_of_untouched s' hload hnone
    rw [hagain, htables] at hkept
    exact hkept

/-- Over the tables that files led to, they lead to the same tables and marks, if all of them add or
all of them replace. -/
theorem applyAll_again {prior : List TableStats} {operation : FileOperation}
    (hop : operation = .add ∨ operation = .replace) (hall : ∀ u ∈ us, u.operation = operation)
    (h : i.applyAll (.start prior) us = (after, none)) :
    ∃ problems,
      i.applyAll (.start after.tables.tables) us = (after.withProblems problems, none) := by
  have hload := forall_load_of_applyAll h
  have hwell := (i.tracks_applyAll prior us).wellFormed
  rw [h] at hwell
  have hstart : (BatchState.start after.tables.tables).tables = after.tables :=
    TableMap.ofTables_tables hwell
  rcases hop with rfl | rfl
  · obtain ⟨hrebuilt, hdeleted, -, hthere⟩ := applyAll_add hall h
    rw [← hstart] at hthere
    obtain ⟨problems, hagain⟩ := applyAll_add_again hall hthere hload
    refine ⟨problems, hagain.trans ?_⟩
    unfold BatchState.withProblems
    rw [hstart, hrebuilt, hdeleted]
    rfl
  · obtain ⟨again, hagain⟩ := exists_applyAll_eq (.start after.tables.tables) hload
    obtain ⟨hrebuilt, hdeleted, hfind⟩ := applyAll_replace_again hall h hagain hstart rfl rfl
    have hwell' := (i.tracks_applyAll after.tables.tables us).wellFormed
    rw [hagain] at hwell'
    refine ⟨again.problems, hagain.trans ?_⟩
    unfold BatchState.withProblems
    rw [← TableMap.ext hwell' hwell hfind, ← hrebuilt, ← hdeleted]

/-! ## Results -/

/-- What is planned depends on the tables and marks alone, not on how they came about. -/
theorem Succeeds.of_withProblems {uploads uploads' : List Upload} {prior prior' : List TableStats}
    {r : Success} {problems : List Problem} (h : i.Succeeds uploads prior r)
    (happlied : i.applyAll (.start prior') (Upload.sort uploads') =
      (r.state.withProblems problems, none)) :
    i.Succeeds uploads' prior' { r with state := r.state.withProblems problems } where
  applied := happlied
  remains := h.remains
  joined := h.joined
  viewed := h.viewed
  stated := h.stated

/-- A successful batch of files that all add or all replace can be submitted again, over the tables
of its result: it succeeds again, with the same result but for its problems. -/
theorem ingest_again (i : Ingestor) (cancelled : Bool) (uploads : List Upload)
    (prior : List TableStats) {operation : FileOperation}
    (hop : operation = .add ∨ operation = .replace) (hall : ∀ u ∈ uploads, u.operation = operation)
    (hok : (i.ingest cancelled uploads prior).status = .ok) :
    let result := i.ingest cancelled uploads prior
    let again := i.ingest cancelled uploads result.fileInformation
    again.status = .ok ∧ again = { result with problems := again.problems } := by
  obtain ⟨r, hr, heq⟩ := exists_succeeds_of_status_eq_ok hok
  have hcancelled : cancelled = false :=
    ((i.isOk_ingest_iff _ _ _).1 (by rw [heq, isOk_resultOf])).1
  subst hcancelled
  have hsorted : ∀ u ∈ Upload.sort uploads, u.operation = operation :=
    fun u hu => hall u ((Upload.perm_sort uploads).mem_iff.1 hu)
  obtain ⟨problems, hagain⟩ := applyAll_again hop hsorted hr.applied
  rw [← hr.fileInformation_eq] at hagain
  have heqAgain := ingest_eq_of_succeeds (hr.of_withProblems hagain)
  rw [heq]
  intro result again
  have hagainResult : again = { result with problems := problems ++ r.join.problems } := heqAgain
  rw [hagainResult]
  exact ⟨rfl, rfl⟩

/-- Two files replace one table, one of them a table that is not there. The second time as well, the
later of the two counts, and the table is dropped and created. -/
theorem ingest_again_replaced_twice :
    let uploads : List Upload := [.ofText "a.csv" "k\n1\n" .replace (some "p"),
      .ofText "b.csv" "k\nx\ny\n" .replace (some "p"), .ofText "q.csv" "k\n1\n" .replace]
    let result := plain.ingest false uploads [.ofNumbers "p" "k"]
    let again := plain.ingest false uploads result.fileInformation
    ((∀ u ∈ uploads, u.operation = .replace) ∧ result.status = .ok) ∧
      again.fileInformation.map (·.numberOfRows) = [2] ∧
      again.tableStatements = result.tableStatements ∧ again.tableStatements.length = 2 := by
  intro uploads result again
  have hall : ∀ u ∈ uploads, u.operation = .replace := by decide
  have hsort : Upload.sort uploads = uploads :=
    List.mergeSort_of_pairwise (by decide +kernel)
  have hresult : result.status = .ok ∧ result.fileInformation.map (·.numberOfRows) = [2] ∧
      result.tableStatements.length = 2 := by
    show (plain.ingest false uploads [.ofNumbers "p" "k"]).status = .ok ∧
      (plain.ingest false uploads [.ofNumbers "p" "k"]).fileInformation.map (·.numberOfRows) = [2] ∧
      (plain.ingest false uploads [.ofNumbers "p" "k"]).tableStatements.length = 2
    rw [ingest, hsort]
    decide +kernel
  obtain ⟨hok, hrows, hlength⟩ := hresult
  have hsame : again = { result with problems := again.problems } :=
    (ingest_again plain false uploads [.ofNumbers "p" "k"] (Or.inr rfl) hall hok).2
  have htables : again.fileInformation = result.fileInformation := by rw [hsame]
  have hstatements : again.tableStatements = result.tableStatements := by rw [hsame]
  exact ⟨⟨hall, hok⟩, htables ▸ hrows, hstatements, hstatements ▸ hlength⟩

end Ingestor

end TabularView
