import TabularView.Proofs.Batch.Rejections
import TabularView.Proofs.Batch.Standing

set_option autoImplicit false

/-! # The file that a table is known by

A table is known by one file: the one that was added, or the last one to replace the table. Files
that are appended leave no trace of their names. A file is kept from being appended for its name
exactly if the table is known by it (`Ingestor.operate_eq_fileExists_iff`). So this happens however
many batches have come in between (`append_again_rejected`), but not to a file that has only been
appended itself (`append_again_of_appended`).

What a file does to the file that a table is known by is a step (`Upload.Renames`). The files that
batches have applied make a chain of these steps, from the tables at the start to those at the end
(`Call.renamesAll_history`), and no step in such a chain adds to a table that is there. -/

namespace TabularView

/-! ## Steps -/

namespace Upload

/-- What a file that fits makes of the name of the file that a table is known by, if there is a
table. -/
inductive Renames (table : String) (u : Upload) : Option String → Option String → Prop
  | other (own : Option String) (h : u.targetTable ≠ table) : Renames table u own own
  | add (h : u.targetTable = table) (hu : u.operation = .add) :
      Renames table u none (some u.fileName)
  | append (file : String) (h : u.targetTable = table) (hu : u.operation = .append) :
      Renames table u (some file) (some file)
  | replace (file : String) (h : u.targetTable = table) (hu : u.operation = .replace) :
      Renames table u (some file) (some u.fileName)
  | delete (file : String) (h : u.targetTable = table) (hu : u.operation = .delete) :
      Renames table u (some file) none

/-- The same for files that fit one after the other. -/
def RenamesAll (table : String) : List Upload → Option String → Option String → Prop
  | [], own, last => own = last
  | u :: rest, own, last => ∃ next, u.Renames table own next ∧ RenamesAll table rest next last

theorem renamesAll_append_iff {table : String} {us vs : List Upload} {own last : Option String} :
    RenamesAll table (us ++ vs) own last ↔
      ∃ next, RenamesAll table us own next ∧ RenamesAll table vs next last := by
  induction us generalizing own with
  | nil => simp [RenamesAll]
  | cons u rest ih =>
      simp only [List.cons_append, RenamesAll, ih]
      constructor
      · rintro ⟨first, hfirst, next, hrest, hvs⟩
        exact ⟨next, ⟨first, hfirst, hrest⟩, hvs⟩
      · rintro ⟨next, ⟨first, hfirst, hrest⟩, hvs⟩
        exact ⟨first, hfirst, next, hrest, hvs⟩

/-- The table is not deleted by the file, nor replaced by it under another name. -/
def Keeps (table file : String) (u : Upload) : Prop :=
  u.targetTable = table →
    u.operation ≠ .delete ∧ (u.operation = .replace → u.fileName = file)

theorem Renames.eq_some_of_keeps {table file : String} {u : Upload} {own next : Option String}
    (h : u.Renames table own next) (hown : own = some file) (hkeeps : u.Keeps table file) :
    next = some file := by
  cases h with
  | other own hne => exact hown
  | add => cases hown
  | append => exact hown
  | replace _ htable hu => rw [(hkeeps htable).2 hu]
  | delete _ htable hu => exact absurd hu (hkeeps htable).1

theorem RenamesAll.eq_some_of_keeps {table file : String} {us : List Upload}
    {own last : Option String} (h : RenamesAll table us own last) (hown : own = some file)
    (hkeeps : ∀ u ∈ us, u.Keeps table file) : last = some file := by
  induction us generalizing own with
  | nil => exact h.symm.trans hown
  | cons u rest ih =>
      obtain ⟨hu, hrest⟩ := List.forall_mem_cons.1 hkeeps
      obtain ⟨next, hnext, h⟩ := h
      exact ih h (hnext.eq_some_of_keeps hown hu) hrest

/-- A file was added to a table or has replaced it, and since then no other file has replaced the
table, nor has it been deleted. -/
def Owns (table file : String) (us : List Upload) : Prop :=
  ∃ before u after, us = before ++ u :: after ∧ u.targetTable = table ∧ u.fileName = file ∧
    (u.operation = .add ∨ u.operation = .replace) ∧ ∀ v ∈ after, v.Keeps table file

/-- The table is known by this file then. -/
theorem RenamesAll.eq_some_of_owns {table file : String} {us : List Upload}
    {own last : Option String} (h : RenamesAll table us own last) (howns : Owns table file us) :
    last = some file := by
  obtain ⟨before, u, after, rfl, htable, rfl, hop, hafter⟩ := howns
  obtain ⟨_, -, next, hnext, hrest⟩ := renamesAll_append_iff.1 h
  refine hrest.eq_some_of_keeps ?_ hafter
  cases hnext with
  | other _ hne => exact absurd htable hne
  | add => rfl
  | append _ _ hu => exact absurd hop (by simp [hu])
  | replace => rfl
  | delete _ _ hu => exact absurd hop (by simp [hu])

end Upload

/-! ## One file -/

theorem TableStats.append_eq_fileExists_iff (existing incoming : TableStats) :
    existing.append incoming = .error (.fileExists incoming.fileName) ↔
      existing.fileName = incoming.fileName := by
  constructor
  · intro h
    by_contra hne
    rw [append, if_neg hne] at h
    split at h
    · cases h
    · rcases bind_eq_error_iff.1 h with hcolumns | ⟨_, _, h⟩
      · cases kind_of_mergeColumns_eq_error hcolumns
      · cases h
  · intro h
    rw [append, if_pos h]

theorem TableStats.fileName_append {existing incoming merged : TableStats}
    (h : existing.append incoming = .ok merged) : merged.fileName = existing.fileName := by
  obtain ⟨-, -, columns, -, rfl⟩ := append_eq_ok_iff.1 h
  rfl

/-- The file that a table is known by, if there is a table. -/
def BatchState.ownFile (s : BatchState) (table : String) : Option String :=
  (s.tables.find? table).map (·.fileName)

/-- Handed on to the next batch, tables are known by the same files. -/
theorem BatchState.ownFile_start {s : BatchState} (h : s.tables.WellFormed) (table : String) :
    (BatchState.start s.tables.tables).ownFile table = s.ownFile table := by
  unfold ownFile start
  rw [TableMap.ofTables_tables h]

namespace Ingestor

variable {i : Ingestor} {s : BatchState} {u : Upload} {loaded : Loaded}

theorem fileName_stats_of_load (h : i.load u = .ok loaded) :
    (loaded.stats u).fileName = u.fileName := by
  rcases load_eq_ok_iff.1 h with ⟨_, rfl⟩ | ⟨_, report, hread, rfl⟩
  · rfl
  · obtain ⟨_, _, _, _, rfl⟩ := (i.reader u).exists_of_read_eq_ok hread
    rfl

/-- A file is kept from being appended for its name exactly if the table is known by it. -/
theorem operate_eq_fileExists_iff (h : i.load u = .ok loaded) (hu : u.operation = .append) :
    s.operate u.targetTable u.operation (loaded.stats u) = .error (.fileExists u.fileName) ↔
      s.ownFile u.targetTable = some u.fileName := by
  have hfile := fileName_stats_of_load h
  rw [BatchState.operate_eq_change, hu, BatchState.ownFile]
  cases hfind : s.tables.find? u.targetTable with
  | none => simp [FileOperation.change, Except.map]
  | some existing =>
      have happend := existing.append_eq_fileExists_iff (loaded.stats u)
      rw [hfile] at happend
      rw [Option.map_some, Option.some.injEq, ← happend]
      show Except.map _ (Except.map _ (existing.append (loaded.stats u))) = _ ↔ _
      cases existing.append (loaded.stats u) <;> simp [Except.map]

/-- A file that is not rejected makes a step. -/
theorem renames_apply (table : String) (h : i.load u = .ok loaded)
    (hrejects : s.rejects u loaded = false) :
    u.Renames table (s.ownFile table) ((s.apply u loaded).ownFile table) := by
  obtain ⟨after, hafter⟩ := BatchState.rejects_eq_false_iff.1 hrejects
  rw [BatchState.apply_of_operate_eq_ok hafter]
  show u.Renames table (s.ownFile table) (after.ownFile table)
  have hfile := fileName_stats_of_load h
  unfold BatchState.ownFile
  by_cases htable : u.targetTable = table
  · rcases BatchState.operate_cases hafter with ⟨hu, ⟨t, ht⟩, rfl⟩ | ⟨hu, hnone, rfl⟩ |
      ⟨hu, ⟨t, ht⟩, rfl⟩ | ⟨hu, existing, merged, hexisting, hmerged, rfl⟩
    · rw [htable] at ht
      simp only [TableMap.find?_erase, htable, if_true, ht]
      exact .delete _ htable hu
    · rw [htable] at hnone
      simp only [TableMap.find?_insert, htable, if_true, hnone, Option.map_some, hfile]
      exact .add htable hu
    · rw [htable] at ht
      simp only [TableMap.find?_insert, htable, if_true, ht, Option.map_some, hfile]
      exact .replace _ htable hu
    · rw [htable] at hexisting
      simp only [TableMap.find?_insert, htable, if_true, hexisting, Option.map_some,
        TableStats.fileName_append hmerged]
      exact .append _ htable hu
  · have hsame : after.tables.find? table = s.tables.find? table := by
      rcases BatchState.operate_cases hafter with ⟨_, _, rfl⟩ | ⟨_, _, rfl⟩ | ⟨_, _, rfl⟩ |
        ⟨_, _, _, _, _, rfl⟩ <;>
        simp [TableMap.find?_erase, TableMap.find?_insert, Ne.symm htable]
    rw [hsame]
    exact .other _ htable

/-- A file that is rejected leaves all tables as they were. -/
theorem tables_apply_of_rejects (hrejects : s.rejects u loaded = true) :
    (s.apply u loaded).tables = s.tables := by
  obtain ⟨f, hf⟩ := BatchState.rejects_eq_true_iff.1 hrejects
  rw [BatchState.apply_of_operate_eq_error hf]
  rfl

/-! ## All files of a batch -/

/-- The files of a batch that are not rejected make a chain, up to the first that cannot be read. -/
theorem renamesAll_accepted (table : String) (s : BatchState) (placed : List (Upload × Nat)) :
    Upload.RenamesAll table ((i.accepted s placed).map (·.1)) (s.ownFile table)
      ((i.applyAll s (placed.map (·.1))).1.ownFile table) := by
  induction placed generalizing s with
  | nil => rfl
  | cons first rest ih =>
      rw [accepted, List.map_cons, applyAll]
      cases hload : i.load first.1 with
      | error f => rfl
      | ok loaded =>
          dsimp only
          cases hrejects : s.rejects first.1 loaded with
          | true =>
              rw [if_pos rfl]
              have hsame : s.ownFile table = (s.apply first.1 loaded).ownFile table := by
                unfold BatchState.ownFile
                rw [tables_apply_of_rejects hrejects]
              rw [hsame]
              exact ih _
          | false =>
              rw [if_neg (by decide), List.map_cons]
              exact ⟨_, renames_apply table hload hrejects, ih _⟩

end Ingestor

/-! ## Batch after batch -/

namespace Call

/-- The tables that batches leave, each over the tables of the one before. -/
def tablesAfter (prior : List TableStats) : List Call → List TableStats
  | [] => prior
  | c :: rest => tablesAfter (c.result prior).fileInformation rest

/-- The files that a batch applies: those that are not rejected if it succeeds, and none if it
fails. -/
def applied (c : Call) (prior : List TableStats) : List Upload :=
  if (c.result prior).isOk then
    (c.ingestor.accepted (.start prior) (Upload.queue c.uploads)).map (·.1)
  else []

/-- The files that batches apply, in order. -/
def history (prior : List TableStats) : List Call → List Upload
  | [] => []
  | c :: rest => c.applied prior ++ history (c.result prior).fileInformation rest

/-- The files that a batch applies make a chain from the tables before it to those after it. -/
theorem renamesAll_applied (table : String) (c : Call) (prior : List TableStats) :
    Upload.RenamesAll table (c.applied prior) ((BatchState.start prior).ownFile table)
      ((BatchState.start (c.result prior).fileInformation).ownFile table) := by
  rw [applied, result]
  rcases c.ingestor.ingest_cases c.cancelled c.uploads prior with ⟨_, r, hr, heq⟩ | ⟨_, _, _, heq⟩
  · have hchain := c.ingestor.renamesAll_accepted table (.start prior) (Upload.queue c.uploads)
    rw [Upload.map_fst_queue, hr.applied] at hchain
    rw [heq, if_pos (c.ingestor.isOk_resultOf r), hr.fileInformation_eq,
      BatchState.ownFile_start hr.tracks.wellFormed]
    exact hchain
  · rw [heq, if_neg (by simp [Ingestor.isOk_failWith])]
    rfl

/-- The files that batches apply make a chain from the tables at the start to those at the end. -/
theorem renamesAll_history (table : String) (prior : List TableStats) (calls : List Call) :
    Upload.RenamesAll table (history prior calls) ((BatchState.start prior).ownFile table)
      ((BatchState.start (tablesAfter prior calls)).ownFile table) := by
  induction calls generalizing prior with
  | nil => rfl
  | cons c rest ih =>
      exact Upload.renamesAll_append_iff.2 ⟨_, c.renamesAll_applied table prior, ih _⟩

end Call

/-! ## What is recorded stays recorded -/

theorem BatchState.problems_prefix_apply (s : BatchState) (u : Upload) (loaded : Loaded) :
    s.problems <+: (s.apply u loaded).problems := by
  cases ho : s.operate u.targetTable u.operation (loaded.stats u) with
  | ok after =>
      rw [apply_of_operate_eq_ok ho]
      exact List.prefix_append ..
  | error f =>
      rw [apply_of_operate_eq_error ho, List.append_assoc]
      exact List.prefix_append ..

namespace Ingestor

variable {i : Ingestor}

theorem problems_prefix_applyAll (s : BatchState) (us : List Upload) :
    s.problems <+: (i.applyAll s us).1.problems := by
  refine applyAll_induction (P := fun s' => s.problems <+: s'.problems) ?_ (List.prefix_refl _)
  intro s' u _ loaded _ hs'
  exact hs'.trans (s'.problems_prefix_apply u loaded)

theorem problems_prefix_finish (prior : List TableStats) (name : String) (s : BatchState) :
    s.problems <+: (i.finish prior name (i.plan s)).problems := by
  cases hplan : i.plan s with
  | done tables join view statements problems =>
      obtain ⟨-, -, j, -, -, rfl, -, -⟩ := plan_eq_done hplan
      exact List.prefix_append ..
  | failed f problems =>
      have hproblems : s.problems <+: problems := by
        unfold plan at hplan
        split at hplan
        · cases hplan
          exact List.prefix_refl _
        · dsimp only at hplan
          split at hplan
          · cases hplan
            exact List.prefix_refl _
          · split at hplan
            · cases hplan
              exact List.prefix_append ..
            · split at hplan
              · cases hplan
                exact List.prefix_append ..
              · cases hplan
      exact hproblems.trans (List.prefix_append ..)

/-- What has been recorded for the files of a batch is in its result, however the batch ends. -/
theorem problems_prefix_ingest (uploads : List Upload) (prior : List TableStats) :
    (i.applyAll (.start prior) (Upload.sort uploads)).1.problems <+:
      (i.ingest false uploads prior).problems := by
  rw [ingest, if_neg (by decide)]
  cases happlied : i.applyAll (.start prior) (Upload.sort uploads) with
  | mk s failure =>
      cases failure with
      | some failure => exact List.prefix_append ..
      | none => exact problems_prefix_finish prior _ s

/-- Files that can be loaded are applied, and then the others. -/
theorem applyAll_append {s : BatchState} {us vs : List Upload}
    (hload : ∀ u ∈ us, ∃ loaded, i.load u = .ok loaded) :
    i.applyAll s (us ++ vs) = i.applyAll (i.applyAll s us).1 vs := by
  induction us generalizing s with
  | nil => rfl
  | cons u rest ih =>
      obtain ⟨⟨loaded, hloaded⟩, hrest⟩ := List.forall_mem_cons.1 hload
      rw [List.cons_append, applyAll, applyAll, hloaded]
      exact ih hrest

end Ingestor

/-! ## Appending again -/

namespace Call

/-- The batch comes to apply a file after some others: it has not been called off, and all of these
files can be loaded. -/
structure ComesTo (c : Call) (earlier : List (Upload × Nat)) (v : Upload × Nat) : Prop where
  cancelled : c.cancelled = false
  earlier : ∀ w ∈ earlier, ∃ loaded, c.ingestor.load w.1 = .ok loaded
  loaded : ∃ loaded, c.ingestor.load v.1 = .ok loaded

/-- Where a batch is after some files. -/
def stateAfter (c : Call) (tables : List TableStats) (earlier : List (Upload × Nat)) : BatchState :=
  (c.ingestor.applyAll (.start tables) (earlier.map (·.1))).1

variable {c : Call} {earlier later : List (Upload × Nat)} {v : Upload × Nat}

/-- A batch that does not come to one of its files fails, and leaves the tables as they were. -/
theorem failed_of_not_comesTo (hplace : Upload.queue c.uploads = earlier ++ v :: later)
    (h : ¬ c.ComesTo earlier v) (tables : List TableStats) :
    (c.result tables).status = .failed ∧ (c.result tables).fileInformation = tables := by
  unfold result
  rcases c.ingestor.ingest_cases c.cancelled c.uploads tables with ⟨hc, r, hr, _⟩ | ⟨_, _, _, heq⟩
  · have hload : ∀ u ∈ Upload.sort c.uploads, ∃ loaded, c.ingestor.load u = .ok loaded :=
      Ingestor.applyAll_snd_eq_none_iff.1 (by rw [hr.applied])
    rw [← Upload.map_fst_queue, hplace, List.map_append, List.map_cons, List.forall_mem_append,
      List.forall_mem_cons, List.forall_mem_map] at hload
    exact absurd ⟨hc, hload.1, hload.2.1⟩ h
  · rw [heq]
    exact ⟨rfl, rfl⟩

/-- What a batch records for a file that it comes to is in its result. -/
theorem ComesTo.mem_problems (h : c.ComesTo earlier v)
    (hplace : Upload.queue c.uploads = earlier ++ v :: later) {tables : List TableStats}
    {loaded : Loaded} (hloaded : c.ingestor.load v.1 = .ok loaded) {p : Problem}
    (hp : p ∈ ((c.stateAfter tables earlier).apply v.1 loaded).problems) :
    p ∈ (c.result tables).problems := by
  have hqueue := Upload.map_fst_queue c.uploads
  rw [hplace, List.map_append, List.map_cons] at hqueue
  have hearlier : ∀ u ∈ earlier.map (·.1), ∃ loaded, c.ingestor.load u = .ok loaded :=
    List.forall_mem_map.2 h.earlier
  have hsplit : c.ingestor.applyAll (.start tables) (Upload.sort c.uploads) =
      c.ingestor.applyAll ((c.stateAfter tables earlier).apply v.1 loaded) (later.map (·.1)) := by
    rw [← hqueue, Ingestor.applyAll_append hearlier, Ingestor.applyAll, hloaded]
    rfl
  have hprefix := c.ingestor.problems_prefix_ingest c.uploads tables
  rw [hsplit] at hprefix
  rw [result, h.cancelled]
  exact hprefix.subset ((Ingestor.problems_prefix_applyAll _ _).subset hp)

end Call

/-- A table is known by the file that was added or that replaced it last. As long as it is, whatever
batches have come in between, a batch that comes to append a file of this name rejects it: the
problem is recorded, and the tables stay as they are. A batch that does not come to it fails and
leaves the tables as they were. -/
theorem append_again_rejected (prior : List TableStats) (calls : List Call) (c : Call)
    {earlier later : List (Upload × Nat)} {v : Upload × Nat}
    (hplace : Upload.queue c.uploads = earlier ++ v :: later) (happend : v.1.operation = .append)
    (howns : Upload.Owns v.1.targetTable v.1.fileName (Call.history prior calls ++
      (c.ingestor.accepted (.start (Call.tablesAfter prior calls)) earlier).map (·.1))) :
    let tables := Call.tablesAfter prior calls
    (c.ComesTo earlier v → ∃ loaded, c.ingestor.load v.1 = .ok loaded ∧
      (∃ t, (c.stateAfter tables earlier).tables.find? v.1.targetTable = some t) ∧
      ((c.stateAfter tables earlier).apply v.1 loaded).tables =
        (c.stateAfter tables earlier).tables ∧
      (Problem.ofFailure v.1.fileName (.fileExists v.1.fileName)).inTable v.1.targetTable ∈
        (c.result tables).problems) ∧
    (¬ c.ComesTo earlier v →
      (c.result tables).status = .failed ∧ (c.result tables).fileInformation = tables) := by
  intro tables
  refine ⟨fun hcomes => ?_, fun hnot => Call.failed_of_not_comesTo hplace hnot tables⟩
  obtain ⟨loaded, hloaded⟩ := hcomes.loaded
  have hchain := Upload.renamesAll_append_iff.2
    ⟨_, Call.renamesAll_history v.1.targetTable prior calls,
      c.ingestor.renamesAll_accepted v.1.targetTable (.start tables) earlier⟩
  have hown : (c.stateAfter tables earlier).ownFile v.1.targetTable = some v.1.fileName :=
    hchain.eq_some_of_owns howns
  obtain ⟨t, ht, -⟩ := Option.map_eq_some_iff.1 hown
  have ho := (Ingestor.operate_eq_fileExists_iff hloaded happend).2 hown
  have happly := BatchState.apply_of_operate_eq_error ho
  refine ⟨loaded, hloaded, ⟨t, ht⟩, by rw [happly]; rfl, hcomes.mem_problems hplace hloaded ?_⟩
  rw [happly]
  exact List.mem_append_right _ (List.mem_singleton.2 rfl)

/-- A batch that adds `a.csv`. -/
def Call.adding : Call where
  ingestor := .plain
  uploads := [.ofText "a.csv" "k\n1\n"]

/-- A batch that appends a file to the table of `a.csv`. -/
def Call.appending (fileName : String) : Call where
  ingestor := .plain
  uploads := [.ofText fileName "k\n2\n" .append (some "a")]

/-- With `b.csv` appended in between, `a.csv` is still not appended to its own table. -/
theorem append_again_rejected_later :
    let calls : List Call := [.adding, .appending "b.csv"]
    let result := (Call.appending "a.csv").result (Call.tablesAfter [] calls)
    result.problems.map (·.errorType) = [.fileAlreadyExists] ∧
      (Problem.ofFailure "a.csv" (.fileExists "a.csv")).inTable "a" ∈ result.problems ∧
      result.fileInformation.map (·.numberOfRows) = [2] := by
  intro calls result
  let v : Upload × Nat := (.ofText "a.csv" "k\n2\n" .append (some "a"), 0)
  have hplace : Upload.queue (Call.appending "a.csv").uploads = [] ++ v :: [] := by decide +kernel
  have howns : Upload.Owns v.1.targetTable v.1.fileName (Call.history [] calls ++
      (Ingestor.plain.accepted (.start (Call.tablesAfter [] calls)) []).map (·.1)) := by
    refine ⟨[], .ofText "a.csv" "k\n1\n", (Call.appending "b.csv").uploads, by decide +kernel,
      by decide +kernel, rfl, Or.inl rfl, List.forall_mem_singleton.2 ?_⟩
    exact fun _ => ⟨by decide, fun h => nomatch h⟩
  have hcomes : (Call.appending "a.csv").ComesTo [] v := by
    refine ⟨rfl, List.forall_mem_nil _, ?_⟩
    obtain ⟨loaded, hloaded, -⟩ := exists_ok_of_any (x := Ingestor.plain.load v.1)
      (p := fun _ => true) (by decide +kernel)
    exact ⟨loaded, hloaded⟩
  obtain ⟨_, -, -, -, hmem⟩ :=
    (append_again_rejected [] calls (.appending "a.csv") hplace rfl howns).1 hcomes
  exact ⟨by decide +kernel, hmem, by decide +kernel⟩

/-- A file that has been appended can be appended again, and its rows are counted twice. -/
theorem append_again_of_appended :
    let calls : List Call := [.adding, .appending "b.csv"]
    let tables := Call.tablesAfter [] calls
    let result := (Call.appending "b.csv").result tables
    ((Call.history [] calls).map fun u => (u.targetTable, u.fileName, u.operation)) =
        [("a", "a.csv", .add), ("a", "b.csv", .append)] ∧
      (result.status = .ok ∧ result.problems = []) ∧
      tables.map (fun t => (t.tableName, t.numberOfRows)) = [("a", 2)] ∧
      result.fileInformation.map (fun t => (t.tableName, t.numberOfRows)) = [("a", 3)] := by
  decide +kernel

end TabularView
