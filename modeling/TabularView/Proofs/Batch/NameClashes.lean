import TabularView.Proofs.Batch.History
import TabularView.Proofs.Batch.Outcome
import TabularView.Proofs.PathName

set_option autoImplicit false

/-! # Clashes of names in the engine

The tables of a batch have different names, but the engine has them in small letters, and the view
is called as a table `view` would be. `Ingestor.nodup_engineNames_iff` says that these are the only
ways in which two names of a successful batch come to be the same.

Publishing touches names of the model and no others, whatever happens in the batch
(`Ingestor.Succeeds.mem_touched_iff`). So two models keep apart exactly if none covers the other
(`Ingestor.apart_iff`), and those without underscores in their ids always do. -/

namespace TabularView

/-! ## Tables in small letters -/

/-- Files name tables in small letters. -/
theorem PathName.isSmall_tableName (path : String) : Text.IsSmall (PathName.tableName path) :=
  (isTableName_tableName path).isSmall

theorem Upload.isSmall_targetTable {u : Upload}
    (h : ∀ table, u.tableName = some table → Text.IsSmall table) : Text.IsSmall u.targetTable := by
  unfold targetTable
  split
  · next table htable => exact h table htable
  · exact PathName.isSmall_tableName _

namespace BatchState

/-- All tables are named in small letters. -/
def AllSmall (s : BatchState) : Prop :=
  ∀ name t, s.tables.find? name = some t → Text.IsSmall name

end BatchState

theorem Ingestor.allSmall_applyAll (i : Ingestor) {prior : List TableStats} {us : List Upload}
    (hprior : ∀ t ∈ prior, Text.IsSmall t.tableName)
    (hus : ∀ u ∈ us, Text.IsSmall u.targetTable) :
    (i.applyAll (.start prior) us).1.AllSmall :=
  i.all_applyAll (fun _ _ _ _ hname _ _ => hname) hprior fun u hu _ _ _ => hus u hu

/-! ## Names of one batch -/

/-- What the engine calls the view and the tables of a result. -/
def BatchResult.engineNames (r : BatchResult) : List String :=
  r.viewName.toList ++ r.joinInformation.map (·.backingTableName)

namespace Ingestor

variable {i : Ingestor} {uploads : List Upload} {prior : List TableStats} {r : Success}

theorem Succeeds.map_tableName (h : i.Succeeds uploads prior r) :
    r.join.tables.map (·.tableName) = r.state.tables.tables.map (·.tableName) := by
  obtain ⟨all, htables⟩ := h.exists_tables_eq
  rw [htables, List.map_map]
  rfl

theorem Succeeds.map_backingTableName (h : i.Succeeds uploads prior r) :
    r.join.tables.map (·.backingTableName) =
      (r.join.tables.map (·.tableName)).map i.model.tableName := by
  obtain ⟨all, htables⟩ := h.exists_tables_eq
  rw [htables, List.map_map, List.map_map, List.map_map]
  rfl

theorem Succeeds.engineNames_resultOf (h : i.Succeeds uploads prior r) :
    (i.resultOf r).engineNames =
      ("view" :: r.join.tables.map (·.tableName)).map i.model.tableName := by
  have hname : r.view.name = i.model.tableName "view" := by
    rw [name_of_planView h.viewed, Model.viewName_eq]
  show [r.view.name] ++ r.join.tables.map (·.backingTableName) = _
  rw [hname, h.map_backingTableName]
  rfl

theorem Succeeds.isSmall_tableName (h : i.Succeeds uploads prior r)
    (hprior : ∀ t ∈ prior, Text.IsSmall t.tableName)
    (huploads : ∀ u ∈ uploads, ∀ table, u.tableName = some table → Text.IsSmall table) :
    ∀ name ∈ r.join.tables.map (·.tableName), Text.IsSmall name := by
  have hsmall : r.state.AllSmall := by
    have hus : ∀ u ∈ Upload.sort uploads, Text.IsSmall u.targetTable := fun u hu =>
      Upload.isSmall_targetTable (huploads u ((Upload.perm_sort uploads).mem_iff.1 hu))
    have hall := i.allSmall_applyAll hprior hus
    rwa [h.applied] at hall
  rw [h.map_tableName]
  intro name hmem
  obtain ⟨t, ht, hname⟩ := List.mem_map.1 hmem
  exact hsmall name t (h.tracks.wellFormed.find?_eq_some_iff.2 ⟨ht, hname⟩)

/-- The tables of a successful batch have different names. The engine's names of them and of the
view are different exactly if those names are different in small letters and none of them is
`view`. Only the latter matters if there were only small letters before the batch and in the names
that it gives. -/
theorem nodup_engineNames_iff (i : Ingestor) (cancelled : Bool) (uploads : List Upload)
    (prior : List TableStats) (h : (i.ingest cancelled uploads prior).status = .ok) :
    let r := i.ingest cancelled uploads prior
    let names := r.joinInformation.map (·.tableName)
    names.Nodup ∧
    (r.engineNames.Nodup ↔ ("view" :: names.map Text.lowerAscii).Nodup) ∧
    ((∀ t ∈ prior, Text.IsSmall t.tableName) →
      (∀ u ∈ uploads, ∀ table, u.tableName = some table → Text.IsSmall table) →
      (r.engineNames.Nodup ↔ "view" ∉ names)) := by
  obtain ⟨r, hr, heq⟩ := exists_succeeds_of_status_eq_ok h
  rw [heq]
  intro result names
  have hnames : names.Nodup := by
    show (r.join.tables.map (·.tableName)).Nodup
    rw [hr.map_tableName]
    exact hr.tracks.wellFormed.nodup_names
  have hengine : result.engineNames.Nodup ↔ ("view" :: names.map Text.lowerAscii).Nodup := by
    rw [hr.engineNames_resultOf, Model.nodup_map_tableName_iff]
    rfl
  refine ⟨hnames, hengine, fun hprior huploads => ?_⟩
  have hlower : names.map Text.lowerAscii = names :=
    (List.map_congr_left (hr.isSmall_tableName hprior huploads)).trans (List.map_id names)
  rw [hengine, hlower, List.nodup_cons]
  exact and_iff_left hnames

/-- Two files give names in small letters, and so had the table before them. None of the three is
called as the view. -/
theorem nodup_engineNames_given :
    let uploads : List Upload :=
      [.ofText "B.csv" "k\n1\n" .add (some "costs"), .ofText "A.csv" "k\n2\n" .add (some "sales")]
    let prior : List TableStats := [.ofNumbers "shops" "k"]
    let r := plain.ingest false uploads prior
    (r.status = .ok ∧ (∀ t ∈ prior, Text.IsSmall t.tableName) ∧
      ∀ u ∈ uploads, ∀ table, u.tableName = some table → Text.IsSmall table) ∧
      r.joinInformation.map (·.tableName) = ["costs", "sales", "shops"] ∧
      r.engineNames.Nodup := by
  intro uploads prior r
  have hsort : Upload.sort uploads = uploads := List.mergeSort_of_pairwise (by decide +kernel)
  have hread : (plain.applyAll (.start prior) (Upload.sort uploads)).2 = none := by
    rw [hsort]
    decide +kernel
  obtain ⟨tables, hsurvivors⟩ : ∃ tables, plain.survivors uploads prior = tables := ⟨_, rfl⟩
  have hplanned : tables.map (·.tableName) = ["costs", "sales", "shops"] ∧
      detachedTables tables = [] := by
    rw [← hsurvivors, survivors, hsort]
    decide +kernel
  have hne : tables ≠ [] := by
    rintro rfl
    cases hplanned.1
  have hsegments : ∀ name ∈ ["costs", "sales", "shops"], isSegment name = true := by decide
  obtain ⟨s, hs, htables⟩ := exists_succeeds_of_survivors hread hsurvivors hne (by decide)
    ((detachedTables_eq_nil_iff hne).1 hplanned.2) ⟨by decide, by decide⟩ fun t ht =>
      hsegments _ (hplanned.1 ▸ List.mem_map_of_mem ht)
  have hr : r = plain.resultOf s := ingest_eq_of_succeeds hs
  have hok : r.status = .ok := by rw [hr]; rfl
  have hprior : ∀ t ∈ prior, Text.IsSmall t.tableName := List.forall_mem_singleton.2 (by rfl)
  have huploads : ∀ u ∈ uploads, ∀ table, u.tableName = some table → Text.IsSmall table := by
    intro u hu table htable
    simp only [uploads, List.mem_cons, List.not_mem_nil, or_false] at hu
    obtain rfl | rfl := hu <;> cases htable <;> rfl
  have hnames : r.joinInformation.map (·.tableName) = ["costs", "sales", "shops"] := by
    rw [← hplanned.1, ← htables, ← hs.map_tableName, hr]
    rfl
  obtain ⟨-, -, hsmall⟩ := nodup_engineNames_iff plain false uploads prior hok
  refine ⟨⟨hok, hprior, huploads⟩, hnames, (hsmall hprior huploads).2 ?_⟩
  show "view" ∉ r.joinInformation.map (·.tableName)
  rw [hnames]
  decide

/-- A file may give a table `view`, and two tables may differ in capitals only. -/
theorem nodup_engineNames_clashes :
    let shadowed := plain.ingest false [.ofText "view.csv" "k\n1\n"] []
    let twice := plain.ingest false [] [.ofNumbers "A" "k", .ofNumbers "a" "k"]
    (shadowed.status = .ok ∧
      ∃ t ∈ shadowed.joinInformation, shadowed.viewName = some t.backingTableName) ∧
    twice.status = .ok ∧ twice.joinInformation.map (·.tableName) = ["A", "a"] ∧
      twice.joinInformation.map (·.backingTableName) = ["w_m_a", "w_m_a"] := by
  intro shadowed twice
  refine ⟨by decide +kernel, ?_⟩
  obtain ⟨r, hr, htables⟩ := plain.exists_succeeds_of_tables
    [.ofNumbers "A" "k", .ofNumbers "a" "k"] (by decide +kernel) (by simp) (by decide)
    ((detachedTables_eq_nil_iff (by simp)).1 (by decide +kernel)) ⟨by decide, by decide⟩ (by decide)
  have heq : twice = plain.resultOf r := ingest_eq_of_succeeds hr
  have hnames : r.join.tables.map (·.tableName) = ["A", "a"] := by
    rw [hr.map_tableName, htables]
    rfl
  rw [heq]
  refine ⟨rfl, hnames, ?_⟩
  show r.join.tables.map (·.backingTableName) = _
  rw [hr.map_backingTableName, hnames]
  decide

end Ingestor

/-! ## Names that publishing touches -/

/-- The statements that publishing a result gives to an engine that refuses none. -/
def BatchResult.published (r : BatchResult) : List String :=
  (r.publish (fun texts text => .ok (texts ++ [text])) []).1

/-- The tables and views that these statements are about. -/
def BatchResult.touched (r : BatchResult) : List String :=
  r.published.filterMap fun text => (Command.ofText? text).map (·.name)

namespace Ingestor

variable {i : Ingestor} {uploads : List Upload} {prior : List TableStats} {r : Success}

theorem Succeeds.published_resultOf (h : i.Succeeds uploads prior r) :
    (i.resultOf r).published = r.statements.map (·.text) ++ [r.view.statement] := by
  unfold BatchResult.published
  rw [publish_accepting h (fun texts text => texts ++ [text])]
  dsimp only
  rw [List.foldl_append_eq_append, ← List.flatMap_def, List.flatMap_singleton', List.nil_append]

theorem Succeeds.touched_resultOf (h : i.Succeeds uploads prior r) :
    (i.resultOf r).touched = r.statements.map (·.table) ++ [i.model.viewName] := by
  have hstatements : (r.statements.map (·.text)).filterMap
      (fun text => (Command.ofText? text).map (·.name)) = r.statements.map (·.table) := by
    rw [List.filterMap_map, ← List.filterMap_eq_map]
    exact congrArg (List.filterMap · r.statements) (funext Command.name_ofText?)
  have hview : (Command.ofText? r.view.statement).map (·.name) = some i.model.viewName := by
    rw [Command.ofText?_view, ← name_of_planView h.viewed]
    rfl
  rw [BatchResult.touched, h.published_resultOf, List.filterMap_append, hstatements]
  simp [hview]

theorem IsBlock.map_table {s : BatchState} {t : JoinTable} {block : List TableStatement}
    (h : i.IsBlock s t block) {name : String} :
    name ∈ block.map (·.table) ↔ name = t.backingTableName := by
  obtain ⟨create, hcreate, rfl⟩ := h
  have htable : create.table = t.backingTableName := by
    obtain ⟨directory, _, hcreate⟩ := bind_eq_ok_iff.1 hcreate
    obtain rfl := Except.ok.inj hcreate
    rfl
  have hdrop : (TableStatement.drop t.backingTableName).table = t.backingTableName := rfl
  split
  · simp [hdrop, htable]
  · simp [htable]

/-- Every table that is gone is dropped, and every planned table is created. -/
theorem mem_map_table_iff {s : BatchState} {tables : List JoinTable}
    {statements : List TableStatement} (h : i.tableStatements s tables = .ok statements)
    {name : String} :
    name ∈ statements.map (·.table) ↔
      (∃ gone ∈ s.gone tables, i.model.tableName gone = name) ∨
        ∃ t ∈ tables, t.backingTableName = name := by
  obtain ⟨blocks, hblocks, rfl⟩ := tableStatements_eq_ok h
  have hcreated : name ∈ blocks.flatten.map (·.table) ↔
      ∃ t ∈ tables, t.backingTableName = name := by
    clear h
    induction hblocks with
    | nil => simp
    | cons hblock _ ih =>
        rw [List.flatten_cons, List.map_append, List.mem_append, hblock.map_table, ih,
          List.exists_mem_cons_iff, eq_comm]
  rw [List.map_append, List.mem_append, hcreated, List.map_map]
  simp [TableStatement.table]

/-- Publishing drops the tables that are gone, creates the planned ones and defines the view. -/
theorem Succeeds.mem_touched_iff (h : i.Succeeds uploads prior r) {name : String} :
    name ∈ (i.resultOf r).touched ↔ ∃ table, i.model.tableName table = name ∧
      (table ∈ r.state.gone r.join.tables ∨ table ∈ r.join.tables.map (·.tableName) ∨
        table = "view") := by
  have hplanned : (∃ t ∈ r.join.tables, t.backingTableName = name) ↔
      ∃ table ∈ r.join.tables.map (·.tableName), i.model.tableName table = name := by
    rw [← List.mem_map, ← List.mem_map, h.map_backingTableName]
  rw [h.touched_resultOf, List.mem_append, mem_map_table_iff h.stated, List.mem_singleton, hplanned,
    Model.viewName_eq]
  constructor
  · rintro ((⟨gone, hgone, rfl⟩ | ⟨table, htable, rfl⟩) | rfl)
    · exact ⟨gone, rfl, Or.inl hgone⟩
    · exact ⟨table, rfl, Or.inr (Or.inl htable)⟩
    · exact ⟨"view", rfl, Or.inr (Or.inr rfl)⟩
  · rintro ⟨table, rfl, hgone | htable | rfl⟩
    · exact Or.inl (Or.inl ⟨table, hgone, rfl⟩)
    · exact Or.inl (Or.inr ⟨table, htable, rfl⟩)
    · exact Or.inr rfl

/-! ## Two models -/

/-- No result of one model touches a table or view that a result of the other touches. -/
def Apart (i j : Ingestor) : Prop :=
  ∀ cancelled uploads prior cancelled' uploads' prior',
    (i.ingest cancelled uploads prior).status = .ok →
    (j.ingest cancelled' uploads' prior').status = .ok →
    List.Disjoint (i.ingest cancelled uploads prior).touched
      (j.ingest cancelled' uploads' prior').touched

variable {j : Ingestor}

theorem Apart.symm (h : i.Apart j) : j.Apart i :=
  fun _ _ _ _ _ _ hj hi => (h _ _ _ _ _ _ hi hj).symm

/-- All that a result touches is called like a table of its model. -/
theorem exists_tableName_of_mem_touched {cancelled : Bool}
    (h : (i.ingest cancelled uploads prior).status = .ok) {name : String}
    (hname : name ∈ (i.ingest cancelled uploads prior).touched) :
    ∃ table, i.model.tableName table = name := by
  obtain ⟨r, hr, heq⟩ := exists_succeeds_of_status_eq_ok h
  rw [heq, hr.mem_touched_iff] at hname
  obtain ⟨table, htable, _⟩ := hname
  exact ⟨table, htable⟩

/-- A result touches its view and all of its tables. -/
theorem mem_touched_of_mem_engineNames {cancelled : Bool}
    (h : (i.ingest cancelled uploads prior).status = .ok) {name : String}
    (hname : name ∈ (i.ingest cancelled uploads prior).engineNames) :
    name ∈ (i.ingest cancelled uploads prior).touched := by
  obtain ⟨r, hr, heq⟩ := exists_succeeds_of_status_eq_ok h
  rw [heq, hr.engineNames_resultOf] at hname
  rw [heq, hr.mem_touched_iff]
  obtain ⟨table, htable, rfl⟩ := List.mem_map.1 hname
  rcases List.mem_cons.1 htable with rfl | hplanned
  · exact ⟨"view", rfl, Or.inr (Or.inr rfl)⟩
  · exact ⟨table, rfl, Or.inr (Or.inl hplanned)⟩

theorem apart_of_not_covers (h : ¬ i.model.Covers j.model) (h' : ¬ j.model.Covers i.model) :
    i.Apart j := by
  intro cancelled uploads prior cancelled' uploads' prior' hi hj name hname hname'
  obtain ⟨table, rfl⟩ := exists_tableName_of_mem_touched hi hname
  obtain ⟨table', heq⟩ := exists_tableName_of_mem_touched hj hname'
  rw [Model.tableName_eq, Model.tableName_eq] at heq
  rcases Model.covers_or_covers heq with hcovers | hcovers
  · exact h' hcovers
  · exact h hcovers

/-- A model can have a table of any name that can be part of a key. -/
theorem exists_tableName_mem_touched (hi : i.model.Proper) (table : String)
    (htable : isSegment table = true) :
    ∃ prior, (i.ingest false [] prior).status = .ok ∧
      i.model.tableName table ∈ (i.ingest false [] prior).touched := by
  let t : TableStats := .ofNumbers table "k"
  have hconnected : Connected [t] := by
    rw [connected_iff_reaches]
    intro k hk
    obtain rfl : k = 0 := by simpa using hk
    exact Relation.ReflTransGen.refl
  obtain ⟨r, hr, htables⟩ := i.exists_succeeds_of_tables [t] rfl (by simp)
    (by simp [t, TableStats.ofNumbers]) hconnected hi (by simpa [t, TableStats.ofNumbers])
  refine ⟨[t], ?_⟩
  have heq := ingest_eq_of_succeeds hr
  have hok : (i.ingest false [] [t]).status = .ok := by rw [heq]; rfl
  refine ⟨hok, mem_touched_of_mem_engineNames hok ?_⟩
  rw [heq, hr.engineNames_resultOf, hr.map_tableName, htables]
  simp [t, TableStats.ofNumbers]

theorem not_apart_of_covers (hi : i.model.Proper) (hj : j.model.Proper)
    (h : i.model.Covers j.model) : ¬ i.Apart j := by
  intro hapart
  obtain ⟨table, htable, heq⟩ := h.exists_tableName_eq hj "t" (by decide)
  obtain ⟨prior, hok, hmem⟩ := exists_tableName_mem_touched hi table htable
  obtain ⟨prior', hok', hmem'⟩ := exists_tableName_mem_touched hj "t" (by decide)
  rw [heq] at hmem
  exact hapart false [] prior false [] prior' hok hok' hmem hmem'

/-- Two models keep apart exactly if neither stem is the start of the other. So they do if their ids
have no underscores and differ in small letters. -/
theorem apart_iff (hi : i.model.Proper) (hj : j.model.Proper) :
    (i.Apart j ↔ ¬ i.model.Covers j.model ∧ ¬ j.model.Covers i.model) ∧
    (i.model.WithoutUnderscores → j.model.WithoutUnderscores →
      (Text.lowerAscii i.model.workspace, Text.lowerAscii i.model.model) ≠
        (Text.lowerAscii j.model.workspace, Text.lowerAscii j.model.model) → i.Apart j) := by
  constructor
  · constructor
    · intro hapart
      exact ⟨fun h => not_apart_of_covers hi hj h hapart,
        fun h => not_apart_of_covers hj hi h hapart.symm⟩
    · rintro ⟨h, h'⟩
      exact apart_of_not_covers h h'
  · intro hnone hnone' hne
    refine apart_of_not_covers (fun h => hne ?_) (fun h => hne ?_)
    · obtain ⟨hworkspace, hmodel⟩ := h.lowerAscii_eq hnone hnone'
      rw [hworkspace, hmodel]
    · obtain ⟨hworkspace, hmodel⟩ := h.lowerAscii_eq hnone' hnone
      rw [hworkspace, hmodel]

/-- There are underscores in the ids, but neither of the stems `a_b_c_` and `a_b_d_` is the start of
the other. -/
theorem apart_despite_underscore :
    let i : Ingestor := { model := { workspace := "a", model := "b_c" } }
    let j : Ingestor := { model := { workspace := "A_b", model := "d" } }
    i.model.Proper ∧ j.model.Proper ∧ i.Apart j := by
  intro i j
  have hi : i.model.Proper := ⟨by decide, by decide⟩
  have hj : j.model.Proper := ⟨by decide, by decide⟩
  exact ⟨hi, hj, (apart_iff hi hj).1.2 (by decide)⟩

/-- Two models whose ids differ, each with one file: they have the same table and the same view. -/
theorem not_apart_of_underscore :
    let i : Ingestor := { model := { workspace := "a", model := "b_c" } }
    let j : Ingestor := { model := { workspace := "a_b", model := "c" } }
    let uploads : List Upload := [.ofText "t.csv" "k\n1\n"]
    i.model.Proper ∧ j.model.Proper ∧
      (Text.lowerAscii i.model.workspace, Text.lowerAscii i.model.model) ≠
        (Text.lowerAscii j.model.workspace, Text.lowerAscii j.model.model) ∧
      (i.ingest false uploads []).status = .ok ∧ (j.ingest false uploads []).status = .ok ∧
      ∀ name ∈ ["a_b_c_view", "a_b_c_t"], name ∈ (i.ingest false uploads []).touched ∧
        name ∈ (j.ingest false uploads []).touched := by
  intro i j uploads
  have hi : (i.ingest false uploads []).status = .ok ∧
      (i.ingest false uploads []).engineNames = ["a_b_c_view", "a_b_c_t"] := by decide +kernel
  have hj : (j.ingest false uploads []).status = .ok ∧
      (j.ingest false uploads []).engineNames = ["a_b_c_view", "a_b_c_t"] := by decide +kernel
  refine ⟨⟨by decide, by decide⟩, ⟨by decide, by decide⟩, by decide, hi.1, hj.1, ?_⟩
  intro name hname
  constructor
  · exact mem_touched_of_mem_engineNames hi.1 (hi.2 ▸ hname)
  · exact mem_touched_of_mem_engineNames hj.1 (hj.2 ▸ hname)

end Ingestor

end TabularView
