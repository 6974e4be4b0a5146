import TabularView.Batch.Watched
import TabularView.CommandLine.Run
import TabularView.Proofs.Batch.Rejections
import TabularView.Proofs.Join.Planned
import TabularView.Proofs.Table.Findings
import TabularView.Proofs.View.JoinOrder

set_option autoImplicit false

/-! # How a batch accounts for its end

Problems come from many places: from cells and over-long rows, from operations that do not fit, from
columns that have no part in the join. None of these ends a batch. The failures that do come from
reading files, from planning and from being called off, and all of them are of a kind that ends a
batch (`EndsBatch`). So the problems of a result tell whether the batch has failed, and the last of
them why (`Ingestor.accounts_ingest`); a failed batch leaves nothing to plan or to publish.

This is so wherever the batch is called off, if it is. In particular a file that is not to be
deleted is never applied without having been read (`BatchState.operateOn_eq`). -/

namespace TabularView

/-! ## Problems that end nothing -/

theorem Problem.isBatchFatal_iff (p : Problem) :
    p.isBatchFatal = true ↔ p.errorType = .invalidTableSet ∨ p.errorType = .unexpectedError := by
  unfold isBatchFatal
  cases p.errorType <;> simp [ErrorKind.isBatchFatal]

/-- None of the problems ends a batch. -/
def Minor (problems : List Problem) : Prop :=
  ∀ p ∈ problems, p.isBatchFatal = false

theorem Minor.nil : Minor [] :=
  List.forall_mem_nil _

theorem Minor.append {problems more : List Problem} (h : Minor problems) (hmore : Minor more) :
    Minor (problems ++ more) :=
  List.forall_mem_append.2 ⟨h, hmore⟩

theorem Minor.singleton {p : Problem} (h : p.isBatchFatal = false) : Minor [p] :=
  List.forall_mem_singleton.2 h

namespace TableReader

/-- Whatever is wrong with the values of a file does not end the batch. -/
theorem minor_of_read_eq_ok (r : TableReader) {stream : ByteStream} {report : TableReport}
    (h : r.read stream = .ok report) : Minor report.problems := by
  intro p hp
  obtain ⟨names, hfinds⟩ := r.exists_finds_of_mem_problems h hp
  rw [Problem.isBatchFatal, hfinds.errorType]
  rfl

end TableReader

theorem minor_of_planJoin {model : Model} {select : Bool} {tables : List TableStats}
    {plan : JoinPlan} (h : planJoin model select tables = .ok plan) : Minor plan.problems := by
  obtain ⟨-, -, rfl⟩ := planJoin_eq_ok_iff.1 h
  intro p hp
  obtain ⟨name, -, hp⟩ := List.mem_flatMap.1 hp
  obtain ⟨place, -, rfl⟩ := List.mem_map.1 hp
  rfl

/-- An operation that does not fit does not end the batch. -/
theorem isBatchFatal_of_mem_rejections {f : Failure} (h : f.kind ∈ ErrorKind.rejections) :
    f.isBatchFatal = false := by
  unfold Failure.isBatchFatal
  simp only [ErrorKind.rejections, List.mem_cons, List.not_mem_nil, or_false] at h
  rcases h with hkind | hkind | hkind | hkind <;> rw [hkind] <;> rfl

/-! ## Failures that end a batch -/

/-- Every failure of the step ends a batch. -/
def EndsBatch {α : Type} (step : Except Failure α) : Prop :=
  ∀ f, step = .error f → f.isBatchFatal = true

namespace EndsBatch

variable {α β : Type}

theorem ok (a : α) : EndsBatch (.ok a) :=
  fun _ h => nomatch h

theorem error {f : Failure} (hf : f.isBatchFatal = true) :
    EndsBatch (.error f : Except Failure α) := by
  intro g hg
  exact Except.error.inj hg ▸ hf

theorem bind {step : Except Failure α} {next : α → Except Failure β} (h : EndsBatch step)
    (hnext : ∀ a, step = .ok a → EndsBatch (next a)) : EndsBatch (step >>= next) := by
  intro f hf
  rcases bind_eq_error_iff.1 hf with hstep | ⟨a, ha, hf⟩
  · exact h f hstep
  · exact hnext a ha f hf

theorem mapM {step : α → Except Failure β} (h : ∀ a, EndsBatch (step a)) (l : List α) :
    EndsBatch (l.mapM step) := by
  induction l with
  | nil => exact ok []
  | cons a rest ih =>
      rw [List.mapM_cons]
      exact (h a).bind fun _ _ => ih.bind fun _ _ => ok _

end EndsBatch

theorem endsBatch_proceed (calledOff : Bool) (stage : String) :
    EndsBatch (proceed calledOff stage) := by
  unfold proceed
  split
  · exact .error rfl
  · exact .ok ()

theorem Ingestor.endsBatch_load (i : Ingestor) (u : Upload) : EndsBatch (i.load u) := by
  intro f hf
  rcases (i.reader u).cases_of_read_eq_error (read_of_load_eq_error hf) with
    ⟨_, rfl⟩ | rfl | ⟨_, rfl⟩
  · rfl
  · rfl
  · rfl

theorem endsBatch_planJoin (model : Model) (select : Bool) (tables : List TableStats) :
    EndsBatch (planJoin model select tables) := by
  intro f hf
  obtain ⟨_, rfl⟩ := exists_of_planJoin_eq_error hf
  rfl

theorem endsBatch_planView (kind : JoinKind) (name : String) (tables : List JoinTable) :
    EndsBatch (planView kind name tables) := by
  intro f hf
  rcases cases_of_planView_eq_error hf with ⟨_, rfl⟩ | rfl
  · rfl
  · rfl

theorem endsBatch_segment (role value : String) : EndsBatch (segment role value) := by
  unfold segment
  split
  · exact .ok _
  · exact .error rfl

theorem Ingestor.endsBatch_tableStatements (i : Ingestor) (s : BatchState)
    (tables : List JoinTable) : EndsBatch (i.tableStatements s tables) := by
  have hcreate : ∀ t, EndsBatch (TableStatement.createFor i.bucket i.model t) := by
    intro t
    unfold TableStatement.createFor Model.dataDirectory
    refine EndsBatch.bind ?_ fun _ _ => .ok _
    exact (endsBatch_segment _ _).bind fun _ _ => (endsBatch_segment _ _).bind fun _ _ =>
      (endsBatch_segment _ _).bind fun _ _ => .ok _
  unfold tableStatements
  dsimp only
  exact (EndsBatch.mapM (fun t => (hcreate t).bind fun _ _ => .ok _) tables).bind fun _ _ => .ok _

/-! ## Files -/

namespace BatchState

variable {i : Ingestor} {s : BatchState} {u : Upload} {loaded : Loaded}

/-- What has been loaded for a file fits its operation: nothing but a deletion goes unread. -/
theorem operateOn_eq (s : BatchState) (h : i.load u = .ok loaded) :
    s.operateOn u loaded = s.operate u.targetTable u.operation (loaded.stats u) := by
  rcases Ingestor.load_eq_ok_iff.1 h with ⟨hdelete, rfl⟩ | ⟨_, report, _, rfl⟩
  · rw [operateOn, if_pos hdelete, hdelete]
    rfl
  · rfl

theorem applyAny_eq (s : BatchState) (h : i.load u = .ok loaded) :
    s.applyAny u loaded = s.apply u loaded := by
  unfold applyAny apply
  cases loaded with
  | table report => rfl
  | deletion =>
      dsimp only
      rw [operateOn_eq s h]
      rfl

/-- A file that has been loaded, rejected or not, adds no problem that ends a batch. -/
theorem minor_apply (hs : Minor s.problems) (h : i.load u = .ok loaded) :
    Minor (s.apply u loaded).problems := by
  have hloaded : Minor loaded.problems := by
    rcases Ingestor.load_eq_ok_iff.1 h with ⟨_, rfl⟩ | ⟨_, report, hread, rfl⟩
    · exact Minor.nil
    · exact (i.reader u).minor_of_read_eq_ok hread
  cases ho : s.operate u.targetTable u.operation (loaded.stats u) with
  | ok after =>
      rw [apply_of_operate_eq_ok ho]
      exact hs.append hloaded
  | error f =>
      have hf := isBatchFatal_of_mem_rejections (kind_of_operate_eq_error ho)
      rw [apply_of_operate_eq_error ho]
      exact (hs.append hloaded).append (.singleton hf)

end BatchState

namespace Ingestor

variable {i : Ingestor}

theorem load_of_loadUnless {off : Bool} {u : Upload} {loaded : Loaded}
    (h : i.loadUnless off u = .ok loaded) : i.load u = .ok loaded := by
  obtain ⟨_, -, h⟩ := bind_eq_ok_iff.1 h
  exact h

/-- Files are applied until one of them cannot be read or the batch is called off. Up to there no
problem ends the batch, and what stops it does. -/
theorem minor_applyWatched (i : Ingestor) (calledOff : Checkpoint → Bool) (place : Nat)
    {s : BatchState} (us : List Upload) (hs : Minor s.problems) :
    Minor (i.applyWatched calledOff place s us).1.problems ∧
      ∀ name f, (i.applyWatched calledOff place s us).2 = some (name, f) →
        f.isBatchFatal = true := by
  induction us generalizing place s with
  | nil => exact ⟨hs, fun _ _ h => nomatch h⟩
  | cons u rest ih =>
      rw [applyWatched]
      cases hload : i.loadUnless (calledOff (.file place)) u with
      | ok loaded =>
          have hloaded := load_of_loadUnless hload
          dsimp only
          rw [BatchState.applyAny_eq s hloaded]
          exact ih _ (BatchState.minor_apply hs hloaded)
      | error f =>
          refine ⟨hs, fun name g hg => ?_⟩
          obtain ⟨rfl, rfl⟩ := Prod.mk.inj (Option.some.inj hg)
          exact (endsBatch_proceed _ _).bind (fun _ _ => i.endsBatch_load u) f hload

/-- Planning adds no problem that ends the batch, and fails only with what does. -/
theorem planWatched_cases (i : Ingestor) (calledOff : Checkpoint → Bool) {s : BatchState}
    (hs : Minor s.problems) :
    (∃ tables join view statements problems, Minor problems ∧
      i.planWatched calledOff s = .done tables join view statements problems) ∨
    ∃ f problems, Minor problems ∧ f.isBatchFatal = true ∧
      i.planWatched calledOff s = .failed f problems := by
  unfold planWatched
  split
  · exact Or.inr ⟨_, _, hs, rfl, rfl⟩
  · split
    · next f hf => exact Or.inr ⟨f, _, hs, endsBatch_proceed _ _ f hf, rfl⟩
    · dsimp only
      split
      · next f hf => exact Or.inr ⟨f, _, hs, endsBatch_planJoin _ _ _ f hf, rfl⟩
      · next join hjoin =>
          have hproblems := hs.append (minor_of_planJoin hjoin)
          split
          · next f hf => exact Or.inr ⟨f, _, hproblems, endsBatch_proceed _ _ f hf, rfl⟩
          · split
            · next f hf => exact Or.inr ⟨f, _, hproblems, endsBatch_planView _ _ _ f hf, rfl⟩
            · split
              · next f hf =>
                  exact Or.inr ⟨f, _, hproblems, i.endsBatch_tableStatements _ _ f hf, rfl⟩
              · exact Or.inl ⟨_, _, _, _, _, hproblems, rfl⟩

end Ingestor

/-! ## Results -/

/-- A result says itself how its batch ended: it failed exactly if a problem ends a batch. Then this
is the last problem and the only one of its kind, the tables are those before the batch, nothing has
been planned, and nothing can be planned again or given to an engine. -/
structure BatchResult.Accounts (prior : List TableStats) (r : BatchResult) : Prop where
  failed_iff : r.status = .failed ↔
    ∃ p ∈ r.problems, p.errorType = .invalidTableSet ∨ p.errorType = .unexpectedError
  last : r.status = .failed → ∃ recorded last, r.problems = recorded ++ [last] ∧
    last.isBatchFatal = true ∧ ∀ p ∈ recorded, p.isBatchFatal = false
  unchanged : r.status = .failed → r.fileInformation = prior
  empty : r.status = .failed → r.joinInformation = [] ∧ r.viewName = none ∧
    r.viewStatement = none ∧ r.tableStatements = []
  unplanned : r.status = .failed → r.view = .error (.misuse .failedBatch)
  unpublished : r.status = .failed → ∀ {σ : Type} (engine : σ → String → Except Failure σ)
    (state : σ), r.publish engine state = (state, .error (.misuse .failedBatch))

/-- What the command line says of a failed batch is its last problem. -/
theorem BatchResult.Accounts.failureReason_eq {prior : List TableStats} {r : BatchResult}
    (h : r.Accounts prior) (hfailed : r.status = .failed) :
    ∃ last, r.problems.getLast? = some last ∧ CommandLine.failureReason r = last.message := by
  obtain ⟨recorded, last, hproblems, hlast, -⟩ := h.last hfailed
  refine ⟨last, by simp [hproblems], ?_⟩
  simp [CommandLine.failureReason, hproblems, hlast]

namespace Ingestor

variable {i : Ingestor}

theorem accounts_failWith (i : Ingestor) (prior : List TableStats) {problems : List Problem}
    (name : String) {f : Failure} (hproblems : Minor problems) (hf : f.isBatchFatal = true) :
    (i.failWith prior problems name f).Accounts prior where
  failed_iff := by
    refine ⟨fun _ => ⟨.ofFailure name f, ?_, ?_⟩, fun _ => rfl⟩
    · exact List.mem_append_right _ (List.mem_singleton.2 rfl)
    · exact (Problem.isBatchFatal_iff _).1 hf
  last := fun _ => ⟨problems, .ofFailure name f, rfl, hf, hproblems⟩
  unchanged := fun _ => rfl
  empty := fun _ => ⟨rfl, rfl, rfl, rfl⟩
  unplanned := fun _ => rfl
  unpublished := fun _ _ _ _ => rfl

theorem accounts_of_isOk {prior : List TableStats} {r : BatchResult} (hr : r.status = .ok)
    (hproblems : Minor r.problems) : r.Accounts prior := by
  have hnot : r.status ≠ .failed := by
    rw [hr]
    decide
  refine ⟨⟨fun h => absurd h hnot, ?_⟩, fun h => absurd h hnot, fun h => absurd h hnot,
    fun h => absurd h hnot, fun h => absurd h hnot, fun h => absurd h hnot⟩
  rintro ⟨p, hp, hfatal⟩
  have hminor := hproblems p hp
  rw [(Problem.isBatchFatal_iff p).2 hfatal] at hminor
  cases hminor

/-- A batch accounts for its end, wherever it is called off. -/
theorem accounts_ingestWatched (i : Ingestor) (calledOff : Checkpoint → Bool)
    (uploads : List Upload) (prior : List TableStats) :
    (i.ingestWatched calledOff uploads prior).Accounts prior := by
  unfold ingestWatched
  cases hreading : proceed (calledOff .reading) "reading files" with
  | error f => exact i.accounts_failWith prior _ .nil (endsBatch_proceed _ _ f hreading)
  | ok _ =>
      have hstart : Minor (BatchState.start prior).problems := .nil
      obtain ⟨hminor, hends⟩ := i.minor_applyWatched calledOff 0 (Upload.sort uploads) hstart
      dsimp only
      split
      · next s name f happlied =>
          rw [happlied] at hminor hends
          exact i.accounts_failWith prior name hminor (hends name f rfl)
      · next s happlied =>
          rw [happlied] at hminor
          rcases i.planWatched_cases calledOff hminor with
            ⟨tables, join, view, statements, problems, hproblems, hplan⟩ |
            ⟨f, problems, hproblems, hf, hplan⟩
          · rw [hplan]
            exact accounts_of_isOk rfl hproblems
          · rw [hplan]
            exact i.accounts_failWith prior _ hproblems hf

/-! ## Batches that are not watched -/

theorem applyWatched_eq_applyAll (i : Ingestor) (place : Nat) (s : BatchState) (us : List Upload) :
    i.applyWatched (fun _ => false) place s us = i.applyAll s us := by
  induction us generalizing place s with
  | nil => rfl
  | cons u rest ih =>
      have hunless : i.loadUnless false u = i.load u := rfl
      rw [applyWatched, applyAll, hunless]
      cases hload : i.load u with
      | error f => rfl
      | ok loaded =>
          dsimp only
          rw [BatchState.applyAny_eq s hload, ih]

/-- A batch that is called off before it starts, or not at all, gets the same answer each time. -/
theorem ingest_eq_ingestWatched (i : Ingestor) (cancelled : Bool) (uploads : List Upload)
    (prior : List TableStats) :
    i.ingest cancelled uploads prior = i.ingestWatched (fun _ => cancelled) uploads prior := by
  cases cancelled with
  | true => rfl
  | false =>
      unfold ingest ingestWatched
      rw [applyWatched_eq_applyAll]
      rfl

/-- Every batch accounts for its end, whether it is called off before it starts, at any later point,
or not at all. -/
theorem accounts_ingest (i : Ingestor) (cancelled : Bool) (uploads : List Upload)
    (prior : List TableStats) :
    (i.ingest cancelled uploads prior).Accounts prior ∧
      ∀ calledOff, (i.ingestWatched calledOff uploads prior).Accounts prior := by
  refine ⟨?_, fun calledOff => i.accounts_ingestWatched calledOff uploads prior⟩
  rw [ingest_eq_ingestWatched]
  exact i.accounts_ingestWatched _ uploads prior

/-- A rejected file is recorded and passed over, and then one without a header ends the batch. -/
theorem accounts_ingest_unreadable :
    let prior : List TableStats := [.ofNumbers "p" "k"]
    let result := plain.ingest false [.ofText "p.csv" "k\n1\n", .ofText "q.csv" ""] prior
    result.problems.map (·.errorType) = [.tableAlreadyExists, .unexpectedError] ∧
      result.status = .failed ∧ result.fileInformation = prior := by
  intro prior result
  have hsorted : [Upload.ofText "p.csv" "k\n1\n", .ofText "q.csv" ""].Pairwise fun u v =>
      (u.compare v).isLE = true := by
    decide +kernel
  have hkinds : result.problems.map (·.errorType) = [.tableAlreadyExists, .unexpectedError] := by
    show (plain.ingest false _ prior).problems.map (·.errorType) = _
    rw [ingest, Upload.sort, List.mergeSort_of_pairwise hsorted]
    decide +kernel
  have haccounts := (accounts_ingest plain false [.ofText "p.csv" "k\n1\n", .ofText "q.csv" ""]
    prior).1
  have hfatal : ∃ p ∈ result.problems,
      p.errorType = .invalidTableSet ∨ p.errorType = .unexpectedError := by
    have hmem : ErrorKind.unexpectedError ∈ result.problems.map (·.errorType) := by
      rw [hkinds]
      decide
    obtain ⟨p, hp, hkind⟩ := List.mem_map.1 hmem
    exact ⟨p, hp, Or.inr hkind⟩
  have hfailed := haccounts.failed_iff.2 hfatal
  exact ⟨hkinds, hfailed, haccounts.unchanged hfailed⟩

end Ingestor

end TabularView
