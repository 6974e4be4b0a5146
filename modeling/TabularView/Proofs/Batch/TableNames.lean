import TabularView.Proofs.Batch.Endings
import TabularView.Proofs.Batch.Outcome
import TabularView.Proofs.Batch.Standing
import TabularView.Proofs.PathName

set_option autoImplicit false

/-! # Names that do not end a batch

A batch may fail on a name that cannot be part of a key, and says so in its last problem
(`BatchResult.FailsOnSegment`); no other failure of a batch is worded that way. It takes an id or
the name of a table that is left to be no segment (`Ingestor.not_failsOnSegment_ingestWatched`).

The names that files give their tables are segments, and batches of files without other names keep
up that all tables are named after files. So no file name ever makes such a batch fail on a name,
whatever batches there were before (`tableNames_usable`). -/

namespace TabularView

/-! ## Wording -/

/-- Of the beginnings of one text the shorter is the beginning of the longer. -/
theorem Text.prefix_or_prefix {front front' rest rest' : String}
    (h : front ++ rest = front' ++ rest') :
    front.toList <+: front'.toList ∨ front'.toList <+: front.toList := by
  have hchars := congrArg String.toList h
  rw [String.toList_append, String.toList_append] at hchars
  refine List.prefix_or_prefix_of_prefix (List.prefix_append _ rest.toList) ?_
  rw [hchars]
  exact List.prefix_append _ _

namespace Failure

/-- The failure is worded like that of a name which cannot be part of a key. -/
def BlamesSegment (f : Failure) : Prop :=
  ∃ role value, f.message = (unexpected (.badSegment role value)).message

/-- The causes that can be worded so: a name itself, and texts that come from elsewhere. -/
def mayBlameSegment : Failure → Bool
  | .unexpected (.badSegment _ _) => true
  | .unexpected (.other _) => true
  | _ => false

/-- The wording of every other cause differs from the beginning on. -/
theorem BlamesSegment.mayBlameSegment {f : Failure} (h : f.BlamesSegment) :
    f.mayBlameSegment = true := by
  obtain ⟨role, value, h⟩ := h
  cases f with
  | unexpected cause =>
      have htext : cause.text = (Surprise.badSegment role value).text :=
        (String.append_right_inj _).1 h
      cases cause with
      | badSegment _ _ | other _ => rfl
      | _ =>
          dsimp only [Surprise.text] at htext
          simp only [String.append_assoc] at htext
          exact absurd (Text.prefix_or_prefix htext) (by decide +kernel)
  | misuse cause | tableSet cause | inputOutput cause | stream cause =>
      dsimp only [message] at h
      exact absurd (Text.prefix_or_prefix h) (by decide +kernel)
  | tableExists name | fileExists name | noSuchTable name | invalidValue name _ =>
      dsimp only [message] at h
      simp only [String.append_assoc] at h
      exact absurd (Text.prefix_or_prefix h) (by decide +kernel)

theorem not_blamesSegment {f : Failure} (h : f.mayBlameSegment = false) : ¬ f.BlamesSegment := by
  intro hblames
  rw [hblames.mayBlameSegment] at h
  cases h

end Failure

/-- The batch failed, and the last problem is that a name cannot be part of a key. -/
def BatchResult.FailsOnSegment (r : BatchResult) : Prop :=
  r.status = .failed ∧ ∃ p, r.problems.getLast? = some p ∧
    ∃ role value, p.message = (Failure.unexpected (.badSegment role value)).message

namespace Ingestor

variable {i : Ingestor}

/-! ## Batches that are called off -/

theorem applyWatched_eq_or (i : Ingestor) (calledOff : Checkpoint → Bool) (place : Nat)
    (s : BatchState) (us : List Upload) :
    i.applyWatched calledOff place s us = i.applyAll s us ∨
      ∃ after name stage, i.applyWatched calledOff place s us =
        (after, some (name, .unexpected (.cancelled stage))) := by
  induction us generalizing place s with
  | nil => exact Or.inl rfl
  | cons u rest ih =>
      rw [applyWatched, applyAll]
      cases calledOff (.file place) with
      | true => exact Or.inr ⟨s, u.fileName, _, rfl⟩
      | false =>
          have hunless : i.loadUnless false u = i.load u := rfl
          rw [hunless]
          cases hload : i.load u with
          | error f => exact Or.inl rfl
          | ok loaded =>
              dsimp only
              rw [BatchState.applyAny_eq s hload]
              exact ih _ _

theorem planWatched_eq_or (i : Ingestor) (calledOff : Checkpoint → Bool) (s : BatchState) :
    i.planWatched calledOff s = i.plan s ∨
      ∃ stage problems, i.planWatched calledOff s =
        .failed (.unexpected (.cancelled stage)) problems := by
  unfold planWatched plan
  cases s.tables.tables with
  | nil => exact Or.inl rfl
  | cons first rest =>
      cases calledOff .joinPlanning with
      | true => exact Or.inr ⟨_, _, rfl⟩
      | false =>
          dsimp only [proceed, Bool.false_eq_true, if_false]
          cases planJoin i.model i.selectJoinColumns (sortTables (first :: rest)) with
          | error f => exact Or.inl rfl
          | ok join =>
              cases calledOff .viewPlanning with
              | true => exact Or.inr ⟨_, _, rfl⟩
              | false => exact Or.inl rfl

/-- A batch fails on being called off, or it takes no notice of when that is. -/
theorem ingestWatched_eq_or (i : Ingestor) (calledOff : Checkpoint → Bool)
    (uploads : List Upload) (prior : List TableStats) :
    i.ingestWatched calledOff uploads prior = i.ingest false uploads prior ∨
      ∃ problems name stage, i.ingestWatched calledOff uploads prior =
        i.failWith prior problems name (.unexpected (.cancelled stage)) := by
  unfold ingestWatched ingest
  cases calledOff .reading with
  | true => exact Or.inr ⟨_, _, _, rfl⟩
  | false =>
      have hreading : proceed false "reading files" = .ok () := rfl
      rw [if_neg Bool.false_ne_true, hreading]
      dsimp only
      rcases i.applyWatched_eq_or calledOff 0 (.start prior) (Upload.sort uploads) with
        happlied | ⟨s, name, stage, happlied⟩
      · rw [happlied]
        cases i.applyAll (.start prior) (Upload.sort uploads) with
        | mk s failure =>
            cases failure with
            | some failure => exact Or.inl rfl
            | none =>
                dsimp only
                rcases i.planWatched_eq_or calledOff s with hplan | ⟨stage, problems, hplan⟩
                · rw [hplan]
                  exact Or.inl rfl
                · rw [hplan]
                  exact Or.inr ⟨_, _, _, rfl⟩
      · rw [happlied]
        exact Or.inr ⟨_, _, _, rfl⟩

/-! ## Batches that fail on a name -/

theorem failsOnSegment_failWith_iff {prior : List TableStats} {problems : List Problem}
    {name : String} {f : Failure} :
    (i.failWith prior problems name f).FailsOnSegment ↔ f.BlamesSegment := by
  have hlast : (i.failWith prior problems name f).problems.getLast? =
      some (.ofFailure name f) := List.getLast?_concat ..
  constructor
  · rintro ⟨-, p, hp, hmessage⟩
    obtain rfl := Option.some.inj (hlast.symm.trans hp)
    exact hmessage
  · intro hblames
    exact ⟨rfl, _, hlast, hblames⟩

theorem not_failsOnSegment_resultOf (i : Ingestor) (r : Success) :
    ¬ (i.resultOf r).FailsOnSegment := by
  rintro ⟨hfailed, -⟩
  cases hfailed

/-- Names are looked at last. Where all of them are segments, only the stages before that can end
the batch. -/
theorem Ends.not_blamesSegment {uploads : List Upload} {s : BatchState} {f : Failure}
    (h : i.Ends uploads s f) (hmodel : i.model.Proper) (hs : s.tables.WellFormed)
    (htables : ∀ t ∈ s.tables.tables, isSegment t.tableName = true) : ¬ f.BlamesSegment := by
  apply Failure.not_blamesSegment
  cases h with
  | unread hu h =>
      rcases (i.reader _).cases_of_read_eq_error (read_of_load_eq_error h) with
        ⟨_, rfl⟩ | rfl | ⟨_, rfl⟩
      · rfl
      · rfl
      · rfl
  | emptied h => rfl
  | unjoined h =>
      obtain ⟨_, rfl⟩ := exists_of_planJoin_eq_error h
      rfl
  | unviewed hplan h =>
      rcases cases_of_planView_eq_error h with ⟨_, rfl⟩ | rfl
      · rfl
      · rfl
  | unstated hplan h =>
      rw [hs.sortTables_tables] at hplan
      obtain ⟨hne, -, rfl⟩ := planJoin_eq_ok_iff.1 hplan
      obtain ⟨statements, hstatements⟩ := (i.exists_tableStatements_planTable_iff s _ _ hne).2
        ⟨hmodel.workspace, hmodel.model, htables⟩
      rw [hstatements] at h
      cases h

theorem not_failsOnSegment_ingestWatched (hmodel : i.model.Proper)
    (calledOff : Checkpoint → Bool) {uploads : List Upload} {prior : List TableStats}
    (htables : ∀ t ∈ i.survivors uploads prior, isSegment t.tableName = true) :
    ¬ (i.ingestWatched calledOff uploads prior).FailsOnSegment := by
  rcases i.ingestWatched_eq_or calledOff uploads prior with heq | ⟨_, _, _, heq⟩
  · rw [heq]
    rcases i.succeeds_or_ends uploads prior with ⟨r, -, heq⟩ | ⟨_, _, f, hends, heq⟩
    · rw [heq]
      exact i.not_failsOnSegment_resultOf r
    · have hwell := (i.tracks_applyAll prior (Upload.sort uploads)).wellFormed
      rw [heq, failsOnSegment_failWith_iff]
      exact hends.not_blamesSegment hmodel hwell htables
  · rw [heq, failsOnSegment_failWith_iff]
    exact Failure.not_blamesSegment rfl

end Ingestor

/-! ## Tables named after files -/

/-- Every table has the name that some file gives. -/
def NamedAfterFiles (tables : List TableStats) : Prop :=
  ∀ t ∈ tables, ∃ path, t.tableName = PathName.tableName path

theorem NamedAfterFiles.isSegment {tables : List TableStats} (h : NamedAfterFiles tables) :
    ∀ t ∈ tables, isSegment t.tableName = true := by
  intro t ht
  obtain ⟨path, hpath⟩ := h t ht
  rw [hpath]
  exact (PathName.isTableName_tableName path).isSegment

namespace Ingestor

theorem namedAfterFiles_survivors (i : Ingestor) {uploads : List Upload}
    {prior : List TableStats} (huploads : ∀ u ∈ uploads, u.tableName = none)
    (hprior : NamedAfterFiles prior) : NamedAfterFiles (i.survivors uploads prior) := by
  have hall : (i.applyAll (.start prior) (Upload.sort uploads)).1.All
      fun name _ => ∃ path, name = PathName.tableName path := by
    refine i.all_applyAll (fun _ _ _ _ hname _ _ => hname) hprior fun u hu _ _ _ => ?_
    refine ⟨u.fileName, ?_⟩
    rw [Upload.targetTable, huploads u ((Upload.perm_sort uploads).mem_iff.1 hu)]
  have hwell := (i.tracks_applyAll prior (Upload.sort uploads)).wellFormed
  exact fun t ht => hall.of_mem hwell ht

/-- What a batch leaves is what has survived its files, or what there was before. -/
theorem namedAfterFiles_ingestWatched (i : Ingestor) (calledOff : Checkpoint → Bool)
    {uploads : List Upload} {prior : List TableStats}
    (huploads : ∀ u ∈ uploads, u.tableName = none) (hprior : NamedAfterFiles prior) :
    NamedAfterFiles (i.ingestWatched calledOff uploads prior).fileInformation := by
  rcases i.ingestWatched_eq_or calledOff uploads prior with heq | ⟨_, _, _, heq⟩
  · rw [heq]
    rcases i.succeeds_or_ends uploads prior with ⟨r, hr, heq⟩ | ⟨_, _, _, -, heq⟩
    · have hsurvivors := i.namedAfterFiles_survivors huploads hprior
      rw [survivors, hr.applied] at hsurvivors
      rw [heq, hr.fileInformation_eq]
      exact hsurvivors
    · rw [heq]
      exact hprior
  · rw [heq]
    exact hprior

/-- A batch of files without names for tables, over tables named after files, does not fail on a
name, wherever it is called off, and leaves tables named after files. -/
theorem usable_ingestWatched {i : Ingestor} (hmodel : i.model.Proper)
    (calledOff : Checkpoint → Bool) {uploads : List Upload} {prior : List TableStats}
    (huploads : ∀ u ∈ uploads, u.tableName = none) (hprior : NamedAfterFiles prior) :
    ¬ (i.ingestWatched calledOff uploads prior).FailsOnSegment ∧
      NamedAfterFiles (i.ingestWatched calledOff uploads prior).fileInformation := by
  have hsurvivors := i.namedAfterFiles_survivors huploads hprior
  exact ⟨not_failsOnSegment_ingestWatched hmodel calledOff hsurvivors.isSegment,
    i.namedAfterFiles_ingestWatched calledOff huploads hprior⟩

end Ingestor

/-- A batch that runs under proper ids and whose files leave it to them to name their tables. -/
structure Call.NamesAfterFiles (c : Call) : Prop where
  model : c.ingestor.model.Proper
  uploads : ∀ u ∈ c.uploads, u.tableName = none

theorem Call.NamesAfterFiles.usable_result {c : Call} (h : c.NamesAfterFiles)
    {prior : List TableStats} (hprior : NamedAfterFiles prior) :
    ¬ (c.result prior).FailsOnSegment ∧ NamedAfterFiles (c.result prior).fileInformation := by
  rw [result, Ingestor.ingest_eq_ingestWatched]
  exact Ingestor.usable_ingestWatched h.model _ h.uploads hprior

/-- Tables stay named after files from batch to batch. -/
theorem usable_of_mem_results {calls : List Call} (hcalls : ∀ c ∈ calls, c.NamesAfterFiles)
    {prior : List TableStats} (hprior : NamedAfterFiles prior) {result : BatchResult}
    (h : result ∈ Call.results prior calls) :
    ¬ result.FailsOnSegment ∧ NamedAfterFiles result.fileInformation := by
  have hstep : ∀ c ∈ calls, ∀ prior, NamedAfterFiles prior →
      NamedAfterFiles (c.result prior).fileInformation := by
    intro c hc prior hprior
    exact ((hcalls c hc).usable_result hprior).2
  obtain ⟨c, hc, before, hbefore, rfl⟩ := Call.exists_of_mem_results hstep hprior h
  exact (hcalls c hc).usable_result hbefore

/-- Every path, whatever it looks like, names a table in small letters, digits and underscores. Such
a name names itself, and no other does. Under proper ids it is taken as it is into all names and
keys. And no batch whose files are left to name their tables fails on a name, if the tables before
it were named so, wherever it is called off; nor does any of several such batches in turn. -/
theorem tableNames_usable :
    (∀ path, PathName.IsTableName (PathName.tableName path) ∧
      PathName.tableName (PathName.tableName path) = PathName.tableName path) ∧
    (∀ name, PathName.tableName name = name ↔ PathName.IsTableName name) ∧
    (∀ m : Model, m.Proper → ∀ path, m.Takes (PathName.tableName path)) ∧
    (∀ i : Ingestor, i.model.Proper → ∀ uploads, (∀ u ∈ uploads, u.tableName = none) →
      ∀ prior, NamedAfterFiles prior →
        (∀ cancelled, ¬ (i.ingest cancelled uploads prior).FailsOnSegment) ∧
        ∀ calledOff, ¬ (i.ingestWatched calledOff uploads prior).FailsOnSegment) ∧
    ∀ calls : List Call, (∀ c ∈ calls, c.NamesAfterFiles) → ∀ prior, NamedAfterFiles prior →
      ∀ result ∈ Call.results prior calls,
        ¬ result.FailsOnSegment ∧ NamedAfterFiles result.fileInformation := by
  refine ⟨?_, fun _ => PathName.tableName_eq_self_iff, ?_, ?_, ?_⟩
  · intro path
    have hname := PathName.isTableName_tableName path
    exact ⟨hname, hname.tableName_eq⟩
  · intro m hm path
    have hname := PathName.isTableName_tableName path
    exact hm.takes hname.isSegment hname.isSmall
  · intro i hmodel uploads huploads prior hprior
    have hwatched := fun calledOff =>
      (Ingestor.usable_ingestWatched hmodel calledOff huploads hprior).1
    refine ⟨fun cancelled => ?_, hwatched⟩
    rw [Ingestor.ingest_eq_ingestWatched]
    exact hwatched _
  · intro calls hcalls prior hprior result hresult
    exact usable_of_mem_results hcalls hprior hresult

/-- A path that ends by going up has no stem, so all of it names the table, which may be the one
that another file has named. -/
theorem tableNames_usable_without_stem :
    let path := "../Été (1)/.."
    let uploads : List Upload := [.ofText path "k\n1\n" .append]
    let prior : List TableStats := [.ofNumbers "t__1_" "k"]
    let r := Ingestor.plain.ingest false uploads prior
    (Ingestor.plain.model.Proper ∧ (∀ u ∈ uploads, u.tableName = none) ∧ NamedAfterFiles prior) ∧
      PathName.stem? path = none ∧ PathName.tableName path = "t__1_" ∧
      Ingestor.plain.model.Takes "t__1_" ∧
      r.fileInformation.map (fun t => (t.tableName, t.numberOfRows)) = [("t__1_", 2)] ∧
      ¬ r.FailsOnSegment := by
  intro path uploads prior r
  have hmodel : Ingestor.plain.model.Proper := ⟨by decide, by decide⟩
  have huploads : ∀ u ∈ uploads, u.tableName = none := by simp [uploads, Upload.ofText]
  have hprior : NamedAfterFiles prior := by
    intro t ht
    obtain rfl := List.mem_singleton.1 ht
    exact ⟨"T (1).csv", by decide +kernel⟩
  have hname : PathName.tableName path = "t__1_" := by decide +kernel
  obtain ⟨-, -, htakes, hbatch, -⟩ := tableNames_usable
  refine ⟨⟨hmodel, huploads, hprior⟩, by decide +kernel, hname, ?_, by decide +kernel, ?_⟩
  · rw [← hname]
    exact htakes _ hmodel path
  · exact (hbatch _ hmodel uploads huploads prior hprior).1 false

/-- Names that are given to tables may be no segments, and then they end the batch. -/
example : (Ingestor.plain.ingest false
    [.ofText "p.csv" "k\n1\n" .add (some "a/b")] []).FailsOnSegment :=
  ⟨by decide +kernel, .ofFailure "p.csv" (.unexpected (.badSegment "table" "a/b")),
    by decide +kernel, "table", "a/b", rfl⟩

end TabularView
