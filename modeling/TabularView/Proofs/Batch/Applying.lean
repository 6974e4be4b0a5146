import TabularView.Proofs.Batch.Planning
import TabularView.Proofs.Batch.TableMap
import TabularView.Proofs.Table.Reading

set_option autoImplicit false

/-! # What applying files does

`BatchState.operate_cases` lists all that an operation can do to the tables and marks of a batch.
What it preserves is preserved by files (`apply_induction`), rejected ones included, and by all
files of a batch (`Ingestor.applyAll_induction`). For what is to hold of every table there is
`Ingestor.all_applyAll`, which asks about tables only.

Another invariant is `BatchState.Tracks`, which says what the marks leave out: a table without a
mark is as it was before the batch, and a table that is gone has been marked as deleted. -/

namespace TabularView

/-! ## One operation -/

namespace BatchState

variable {s s' : BatchState} {table : String} {operation : FileOperation} {stats : TableStats}

/-- All ways in which an operation fits. -/
theorem operate_cases (h : s.operate table operation stats = .ok s') :
    (operation = .delete ∧ (∃ t, s.tables.find? table = some t) ∧
      s' = { s with tables := s.tables.erase table, deleted := table :: s.deleted }) ∨
    (operation = .add ∧ s.tables.find? table = none ∧
      s' = { s with tables := s.tables.insert table stats }) ∨
    (operation = .replace ∧ (∃ t, s.tables.find? table = some t) ∧
      s' = { s with tables := s.tables.insert table stats, rebuilt := table :: s.rebuilt }) ∨
    (operation = .append ∧ ∃ existing merged, s.tables.find? table = some existing ∧
      existing.append stats = .ok merged ∧
      s' = { s with tables := s.tables.insert table merged, rebuilt := table :: s.rebuilt }) := by
  cases operation with
  | add =>
      cases hf : s.tables.find? table with
      | none => exact Or.inr (Or.inl ⟨rfl, rfl, by simpa [operate, hf] using h.symm⟩)
      | some t => simp [operate, hf] at h
  | append =>
      cases hf : s.tables.find? table with
      | none => simp [operate, hf] at h
      | some existing =>
          cases hm : existing.append stats with
          | error f => simp [operate, hf, hm] at h
          | ok merged =>
              exact Or.inr (Or.inr (Or.inr
                ⟨rfl, existing, merged, rfl, hm, by simpa [operate, hf, hm] using h.symm⟩))
  | replace =>
      cases hf : s.tables.find? table with
      | none => simp [operate, hf] at h
      | some t =>
          exact Or.inr (Or.inr (Or.inl ⟨rfl, ⟨t, rfl⟩, by simpa [operate, hf] using h.symm⟩))
  | delete =>
      cases hf : s.tables.find? table with
      | none => simp [operate, hf] at h
      | some t => exact Or.inl ⟨rfl, ⟨t, rfl⟩, by simpa [operate, hf] using h.symm⟩

end BatchState

/-- What an operation that fits does to its table. -/
inductive Change
  | add (t : TableStats)
  | rebuild (t : TableStats)
  | delete

/-- The change that an operation asks for, given the table that is there. -/
def FileOperation.change (operation : FileOperation) (table : String)
    (current : Option TableStats) (stats : TableStats) : Except Failure Change :=
  match operation, current with
  | .add, none => .ok (.add stats)
  | .add, some _ => .error (.tableExists table)
  | .append, some existing => (existing.append stats).map .rebuild
  | .replace, some _ => .ok (.rebuild stats)
  | .delete, some _ => .ok .delete
  | _, none => .error (.noSuchTable table)

namespace BatchState

/-- The state with a table changed, and marked unless it is new. -/
def change (s : BatchState) (table : String) : Change → BatchState
  | .add t => { s with tables := s.tables.insert table t }
  | .rebuild t => { s with tables := s.tables.insert table t, rebuilt := table :: s.rebuilt }
  | .delete => { s with tables := s.tables.erase table, deleted := table :: s.deleted }

/-- An operation looks at its own table only, and changes no other. -/
theorem operate_eq_change (s : BatchState) (table : String) (operation : FileOperation)
    (stats : TableStats) :
    s.operate table operation stats =
      (operation.change table (s.tables.find? table) stats).map (s.change table) := by
  unfold operate FileOperation.change
  cases operation with
  | add => cases s.tables.find? table <;> rfl
  | replace => cases s.tables.find? table <;> rfl
  | delete => cases s.tables.find? table <;> rfl
  | append =>
      cases s.tables.find? table with
      | none => rfl
      | some existing =>
          dsimp only
          cases existing.append stats <;> rfl

end BatchState

/-! ## One file -/

/-- The table that a loaded file stands for. -/
def Loaded.stats (u : Upload) : Loaded → TableStats
  | .table report => report.stats
  | .deletion => BatchState.noStats u

/-- The problems met in reading a loaded file. -/
def Loaded.problems : Loaded → List Problem
  | .table report => report.problems
  | .deletion => []

namespace BatchState

/-- A file has its problems recorded, and then its operation fits or is recorded as a problem
itself. -/
theorem apply_eq (s : BatchState) (u : Upload) (loaded : Loaded) :
    s.apply u loaded =
      match (s.record loaded.problems).operate u.targetTable u.operation (loaded.stats u) with
      | .ok after => after
      | .error f => (s.record loaded.problems).record
          [(Problem.ofFailure u.fileName f).inTable u.targetTable] := by
  cases loaded with
  | table report => rfl
  | deletion =>
      have hrecord : s.record Loaded.deletion.problems = s := by simp [record, Loaded.problems]
      rw [hrecord]
      rfl

/-- The state with other problems recorded. -/
def withProblems (s : BatchState) (problems : List Problem) : BatchState :=
  { s with problems }

/-- What is recorded does not matter for an operation. -/
theorem operate_withProblems (s : BatchState) (problems : List Problem) (table : String)
    (operation : FileOperation) (stats : TableStats) :
    (s.withProblems problems).operate table operation stats =
      (s.operate table operation stats).map (·.withProblems problems) := by
  have hchange : (s.withProblems problems).change table =
      (·.withProblems problems) ∘ s.change table := by
    funext c
    cases c <;> rfl
  have hfind : (s.withProblems problems).tables.find? table = s.tables.find? table := rfl
  rw [operate_eq_change, operate_eq_change, hchange, hfind]
  cases operation.change table (s.tables.find? table) stats <;> rfl

/-- A file whose operation fits leads to what the operation leads to. -/
theorem apply_of_operate_eq_ok {s after : BatchState} {u : Upload} {loaded : Loaded}
    (h : s.operate u.targetTable u.operation (loaded.stats u) = .ok after) :
    s.apply u loaded = after.withProblems (s.problems ++ loaded.problems) := by
  have hrecord : s.record loaded.problems = s.withProblems (s.problems ++ loaded.problems) := rfl
  rw [apply_eq, hrecord, operate_withProblems, h]
  rfl

/-- A file whose operation does not fit leaves tables and marks as they were. -/
theorem apply_of_operate_eq_error {s : BatchState} {u : Upload} {loaded : Loaded} {f : Failure}
    (h : s.operate u.targetTable u.operation (loaded.stats u) = .error f) :
    s.apply u loaded = s.withProblems (s.problems ++ loaded.problems ++
      [(Problem.ofFailure u.fileName f).inTable u.targetTable]) := by
  have hrecord : s.record loaded.problems = s.withProblems (s.problems ++ loaded.problems) := rfl
  rw [apply_eq, hrecord, operate_withProblems, h]
  rfl

/-- What recording and fitting operations preserve, files preserve. -/
theorem apply_induction {P : BatchState → Prop} {s : BatchState} {u : Upload} {loaded : Loaded}
    (hrecord : ∀ s problems, P s → P (s.record problems))
    (hoperate : ∀ s s', s.operate u.targetTable u.operation (loaded.stats u) = .ok s' →
      P s → P s') (h : P s) : P (s.apply u loaded) := by
  rw [apply_eq]
  split
  · next after hafter => exact hoperate _ _ hafter (hrecord _ _ h)
  · exact hrecord _ _ (hrecord _ _ h)

end BatchState

/-! ## Loading -/

namespace Ingestor

variable {i : Ingestor}

/-- How a file is read for its table. -/
def reader (i : Ingestor) (u : Upload) : TableReader where
  fileName := u.fileName
  tableName := u.targetTable
  delimiter := i.delimiter
  encoding := i.encoding

theorem load_eq_ok_iff {u : Upload} {loaded : Loaded} :
    i.load u = .ok loaded ↔
      (u.operation = .delete ∧ loaded = .deletion) ∨
        u.operation ≠ .delete ∧
          ∃ report, (i.reader u).read u.stream = .ok report ∧ loaded = .table report := by
  rw [load]
  split
  · next hdelete => simp [hdelete, eq_comm]
  · next hdelete =>
      have hne : u.operation ≠ .delete := hdelete
      dsimp only
      split
      · next report hreport =>
          have hread : (i.reader u).read u.stream = .ok report := hreport
          simp [hne, hread, eq_comm]
      · next f hf =>
          have hread : (i.reader u).read u.stream = .error f := hf
          simp [hne, hread]

/-- A file that cannot be loaded cannot be read. -/
theorem read_of_load_eq_error {u : Upload} {f : Failure} (h : i.load u = .error f) :
    (i.reader u).read u.stream = .error f := by
  rw [load] at h
  split at h
  · cases h
  · dsimp only at h
    split at h
    · cases h
    · next g hg =>
        obtain rfl := Except.error.inj h
        exact hg

/-- A file is read for the table it belongs to. -/
theorem tableName_stats_of_load {u : Upload} {loaded : Loaded} (h : i.load u = .ok loaded) :
    (loaded.stats u).tableName = u.targetTable := by
  rcases load_eq_ok_iff.1 h with ⟨_, rfl⟩ | ⟨_, report, hread, rfl⟩
  · rfl
  · obtain ⟨_, _, _, _, rfl⟩ := (i.reader u).exists_of_read_eq_ok hread
    rfl

/-- A file that is no deletion is loaded with at least one column. -/
theorem columns_stats_ne_nil_of_load {u : Upload} {loaded : Loaded} (h : i.load u = .ok loaded)
    (hne : u.operation ≠ .delete) : (loaded.stats u).columns ≠ [] := by
  rcases load_eq_ok_iff.1 h with ⟨hdelete, _⟩ | ⟨_, report, hread, rfl⟩
  · exact absurd hdelete hne
  · exact (i.reader u).columns_ne_nil_of_read_eq_ok hread

/-! ## All files -/

/-- Files are applied to the end exactly when each of them can be loaded. -/
theorem applyAll_snd_eq_none_iff {s : BatchState} {us : List Upload} :
    (i.applyAll s us).2 = none ↔ ∀ u ∈ us, ∃ loaded, i.load u = .ok loaded := by
  induction us generalizing s with
  | nil => simp [applyAll]
  | cons u rest ih =>
      rw [applyAll, List.forall_mem_cons]
      cases hload : i.load u with
      | error f => simp
      | ok loaded => simpa using ih

/-- What each loaded file preserves, all of them preserve. -/
theorem applyAll_induction {P : BatchState → Prop} {s : BatchState} {us : List Upload}
    (hstep : ∀ s, ∀ u ∈ us, ∀ loaded, i.load u = .ok loaded → P s → P (s.apply u loaded))
    (h : P s) : P (i.applyAll s us).1 := by
  induction us generalizing s with
  | nil => exact h
  | cons u rest ih =>
      rw [applyAll]
      cases hload : i.load u with
      | error f => exact h
      | ok loaded =>
          refine ih (fun s v hv => hstep s v (List.mem_cons_of_mem _ hv)) ?_
          exact hstep s u (List.mem_cons_self ..) loaded hload h

end Ingestor

/-! ## What holds of all tables -/

/-- What holds of two tables of a name holds of the one with the files of both. -/
def KeptByAppend (P : String → TableStats → Prop) : Prop :=
  ∀ name existing incoming merged, P name existing → P name incoming →
    existing.append incoming = .ok merged → P name merged

namespace BatchState

variable {P : String → TableStats → Prop}

/-- A property holds of every table there is. -/
def All (P : String → TableStats → Prop) (s : BatchState) : Prop :=
  ∀ name t, s.tables.find? name = some t → P name t

theorem All.of_mem {s : BatchState} (h : s.All P) (hwell : s.tables.WellFormed) {t : TableStats}
    (ht : t ∈ s.tables.tables) : P t.tableName t :=
  h _ t (hwell.find?_eq_some_iff.2 ⟨ht, rfl⟩)

/-- After an operation, the tables are as they were, or the one of the file or of both files. -/
theorem All.operate_of {Q : String → TableStats → Prop} {s s' : BatchState} {table : String}
    {operation : FileOperation} {stats : TableStats} (h : s.All P)
    (hkept : ∀ name t, P name t → Q name t) (hstats : operation ≠ .delete → Q table stats)
    (happend : operation = .append → ∀ existing merged, P table existing →
      existing.append stats = .ok merged → Q table merged)
    (ho : s.operate table operation stats = .ok s') : s'.All Q := by
  have hinsert : ∀ t, Q table t → ∀ other u,
      (s.tables.insert table t).find? other = some u → Q other u := by
    intro t ht other u hu
    rw [TableMap.find?_insert] at hu
    split at hu
    · next heq =>
        obtain rfl := Option.some.inj hu
        exact heq ▸ ht
    · exact hkept other u (h other u hu)
  rcases operate_cases ho with ⟨_, _, rfl⟩ | ⟨rfl, _, rfl⟩ | ⟨rfl, _, rfl⟩ |
    ⟨rfl, existing, merged, hexisting, hmerged, rfl⟩
  · intro other u hu
    rw [TableMap.find?_erase] at hu
    split at hu
    · cases hu
    · exact hkept other u (h other u hu)
  · exact hinsert stats (hstats (by decide))
  · exact hinsert stats (hstats (by decide))
  · exact hinsert merged (happend rfl existing merged (h table existing hexisting) hmerged)

theorem All.operate {s s' : BatchState} {table : String} {operation : FileOperation}
    {stats : TableStats} (h : s.All P) (happend : KeptByAppend P)
    (hstats : operation ≠ .delete → P table stats)
    (ho : s.operate table operation stats = .ok s') : s'.All P := by
  refine h.operate_of (fun _ _ ht => ht) hstats (fun hoperation existing merged hexisting => ?_) ho
  exact happend table existing stats merged hexisting (hstats (by simp [hoperation]))

end BatchState

/-- What holds of all tables before a batch, of all files and of what they make together holds of
all tables after the batch. -/
theorem Ingestor.all_applyAll (i : Ingestor) {P : String → TableStats → Prop}
    {prior : List TableStats} {us : List Upload} (happend : KeptByAppend P)
    (hprior : ∀ t ∈ prior, P t.tableName t)
    (hload : ∀ u ∈ us, ∀ loaded, i.load u = .ok loaded → u.operation ≠ .delete →
      P u.targetTable (loaded.stats u)) :
    (i.applyAll (.start prior) us).1.All P := by
  refine applyAll_induction ?_ fun name t ht => ?_
  · intro s u hu loaded hloaded hs
    refine BatchState.apply_induction (fun s problems h => h) ?_ hs
    intro s s' ho h
    exact h.operate happend (hload u hu loaded hloaded) ho
  · obtain ⟨hmem, rfl⟩ := TableMap.mem_of_find?_ofTables ht
    exact hprior t hmem

/-! ## What the marks leave out -/

namespace BatchState

/-- A batch part way through, seen from the tables before it. -/
structure Tracks (before : TableMap) (s : BatchState) : Prop where
  wellFormed : s.tables.WellFormed
  kept : ∀ name t, before.find? name = some t → name ∉ s.rebuilt → name ∉ s.deleted →
    s.tables.find? name = some t
  dropped : ∀ name t, before.find? name = some t → s.tables.find? name = none → name ∈ s.deleted

theorem tracks_start (prior : List TableStats) : Tracks (.ofTables prior) (.start prior) where
  wellFormed := TableMap.wellFormed_ofTables prior
  kept := fun _ _ h _ _ => h
  dropped := fun _ _ h hnone => absurd (h.symm.trans hnone) (by simp)

theorem Tracks.record {before : TableMap} {s : BatchState} (h : Tracks before s)
    (problems : List Problem) : Tracks before (s.record problems) where
  wellFormed := h.wellFormed
  kept := h.kept
  dropped := h.dropped

/-- A table put in place of the one it had is marked as rebuilt. -/
theorem Tracks.rebuild {before : TableMap} {s : BatchState} (h : Tracks before s) {name : String}
    {t : TableStats} (ht : t.tableName = name) :
    Tracks before
      { s with tables := s.tables.insert name t, rebuilt := name :: s.rebuilt } where
  wellFormed := h.wellFormed.insert ht
  kept := by
    intro other u hu hr hd
    obtain ⟨hne, hr⟩ := List.ne_and_not_mem_of_not_mem_cons hr
    rw [TableMap.find?_insert, if_neg hne]
    exact h.kept other u hu hr hd
  dropped := by
    intro other u hu hnone
    rw [TableMap.find?_insert] at hnone
    split at hnone
    · cases hnone
    · exact h.dropped other u hu hnone

theorem Tracks.operate {before : TableMap} {s s' : BatchState} {table : String}
    {operation : FileOperation} {stats : TableStats} (h : Tracks before s)
    (hname : stats.tableName = table) (ho : s.operate table operation stats = .ok s') :
    Tracks before s' := by
  rcases operate_cases ho with ⟨_, _, rfl⟩ | ⟨_, hnone, rfl⟩ | ⟨_, _, rfl⟩ |
    ⟨_, existing, merged, hexisting, hmerged, rfl⟩
  · refine ⟨h.wellFormed.erase table, ?_, ?_⟩
    · intro other u hu hr hd
      obtain ⟨hne, hd⟩ := List.ne_and_not_mem_of_not_mem_cons hd
      rw [TableMap.find?_erase, if_neg hne]
      exact h.kept other u hu hr hd
    · intro other u hu hnone
      rw [TableMap.find?_erase] at hnone
      split at hnone
      · next heq => exact heq ▸ List.mem_cons_self ..
      · exact List.mem_cons_of_mem _ (h.dropped other u hu hnone)
  · -- a table that was there before and has no mark cannot be added
    refine ⟨h.wellFormed.insert hname, ?_, ?_⟩
    · intro other u hu hr hd
      have hkept := h.kept other u hu hr hd
      rw [TableMap.find?_insert, if_neg, hkept]
      rintro rfl
      exact absurd (hkept.symm.trans hnone) (by simp)
    · intro other u hu hfind
      rw [TableMap.find?_insert] at hfind
      split at hfind
      · cases hfind
      · exact h.dropped other u hu hfind
  · exact h.rebuild hname
  · refine h.rebuild ?_
    rw [TableStats.tableName_append hmerged]
    exact (h.wellFormed.find?_eq_some_iff.1 hexisting).2

end BatchState

/-- Through a whole batch the marks account for every change. -/
theorem Ingestor.tracks_applyAll (i : Ingestor) (prior : List TableStats) (us : List Upload) :
    BatchState.Tracks (.ofTables prior) (i.applyAll (.start prior) us).1 := by
  refine applyAll_induction ?_ (BatchState.tracks_start prior)
  intro s u _ loaded hload hs
  refine BatchState.apply_induction (fun s problems h => h.record problems) ?_ hs
  intro s s' ho h
  exact h.operate (tableName_stats_of_load hload) ho

end TabularView
