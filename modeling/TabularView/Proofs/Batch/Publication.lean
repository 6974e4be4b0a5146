import TabularView.Proofs.Batch.Applying
import TabularView.Proofs.Fallible
import TabularView.Proofs.Join.Planned
import TabularView.Proofs.Storage.Catalogue

set_option autoImplicit false

/-! # What an engine knows after a batch

Publishing a batch drops the tables that are gone, drops those that were marked, and creates all
planned tables. `mirrors_of_succeeds` says that this brings a catalogue that mirrors the tables
before the batch to one that mirrors the planned tables: it has these and no others, each with the
columns planned now. -/

namespace TabularView

/-! ## Statements of a batch -/

/-- The table has been rebuilt or deleted on the way. -/
def BatchState.marks (s : BatchState) (name : String) : Bool :=
  s.rebuilt.contains name || s.deleted.contains name

/-- The deleted tables that are not planned again. -/
def BatchState.gone (s : BatchState) (tables : List JoinTable) : List String :=
  (s.deleted.foldl (fun names name => insertName name names) []).filter
    fun name => !(tables.map (·.tableName)).contains name

theorem BatchState.mem_gone {s : BatchState} {tables : List JoinTable} {name : String} :
    name ∈ s.gone tables ↔ name ∈ s.deleted ∧ ∀ t ∈ tables, t.tableName ≠ name := by
  rw [gone, List.mem_filter, mem_foldl_insertName ]
  simp

namespace Ingestor

variable {i : Ingestor}

/-- The text of the statement that creates a planned table. -/
def creation (i : Ingestor) (t : JoinTable) : Except Failure String :=
  (TableStatement.createFor i.bucket i.model t).map (·.text)

/-- The statements about a planned table. -/
def IsBlock (i : Ingestor) (s : BatchState) (t : JoinTable) (block : List TableStatement) : Prop :=
  ∃ create, TableStatement.createFor i.bucket i.model t = .ok create ∧
    block = if s.marks t.tableName then [.drop t.backingTableName, create] else [create]

theorem tableStatements_eq_ok {s : BatchState} {tables : List JoinTable}
    {statements : List TableStatement} (h : i.tableStatements s tables = .ok statements) :
    ∃ blocks, List.Forall₂ (i.IsBlock s) tables blocks ∧
      statements = (s.gone tables).map (fun name => .drop (i.model.tableName name)) ++
        blocks.flatten := by
  rw [tableStatements] at h
  obtain ⟨blocks, hblocks, h⟩ := bind_eq_ok_iff.1 h
  refine ⟨blocks, (mapM_eq_ok_iff.1 hblocks).imp ?_, (Except.ok.inj h).symm⟩
  intro t block hblock
  obtain ⟨create, hcreate, hblock⟩ := bind_eq_ok_iff.1 hblock
  exact ⟨create, hcreate, (Except.ok.inj hblock).symm⟩

/-! ## Executing them -/

theorem execute_createFor {t : JoinTable} {create : TableStatement} (c : Catalogue)
    (h : TableStatement.createFor i.bucket i.model t = .ok create) :
    c.execute create.text = c.create t.backingTableName create.text := by
  rw [TableStatement.createFor] at h
  obtain ⟨directory, _, h⟩ := bind_eq_ok_iff.1 h
  obtain rfl := Except.ok.inj h
  rw [Catalogue.execute_create]

/-- After its statements a table is as it is created now, unless it was there without a mark and
with other columns. Other tables are as before. -/
theorem tables_executeAll_block {s : BatchState} {t : JoinTable} {block : List TableStatement}
    (hblock : i.IsBlock s t block) {c : Catalogue}
    (hold : s.marks t.tableName = false → ∀ text, c.tables t.backingTableName = some text →
      i.creation t = .ok text) :
    (∃ text, i.creation t = .ok text ∧
      (c.executeAll (block.map (·.text))).tables t.backingTableName = some text) ∧
    ∀ name, name ≠ t.backingTableName →
      (c.executeAll (block.map (·.text))).tables name = c.tables name := by
  obtain ⟨create, hcreate, rfl⟩ := hblock
  have hcreation : i.creation t = .ok create.text := by rw [creation, hcreate]; rfl
  cases hm : s.marks t.tableName with
  | true =>
      -- dropped first, the table is created whatever it was
      have hexecute : c.executeAll
          ((if true = true then [.drop t.backingTableName, create] else [create]).map (·.text)) =
          (c.drop t.backingTableName).create t.backingTableName create.text := by
        simp only [if_true, List.map_cons, List.map_nil, Catalogue.executeAll, List.foldl_cons,
          List.foldl_nil, Catalogue.execute_drop, execute_createFor _ hcreate]
      rw [hexecute]
      exact ⟨⟨create.text, hcreation, by simp [Catalogue.create, Catalogue.drop]⟩,
        fun name hne => by simp [Catalogue.create, Catalogue.drop, hne]⟩
  | false =>
      -- created only if it is not there, and what is there is as created now
      have hexecute : c.executeAll
          ((if false = true then [.drop t.backingTableName, create] else [create]).map (·.text)) =
          c.create t.backingTableName create.text := by
        simp only [Bool.false_eq_true, if_false, List.map_cons, List.map_nil, Catalogue.executeAll,
          List.foldl_cons, List.foldl_nil, execute_createFor _ hcreate]
      rw [hexecute]
      refine ⟨⟨create.text, hcreation, ?_⟩, fun name hne => by simp [Catalogue.create, hne]⟩
      cases hthere : c.tables t.backingTableName with
      | none => simp [Catalogue.create, hthere]
      | some text =>
          have htext : text = create.text :=
            Except.ok.inj ((hold hm text hthere).symm.trans hcreation)
          simp [Catalogue.create, hthere, htext]

/-- The same for tables of different names, one after the other. -/
theorem tables_executeAll_blocks {s : BatchState} {tables : List JoinTable}
    {blocks : List (List TableStatement)} (hblocks : List.Forall₂ (i.IsBlock s) tables blocks)
    (hdistinct : (tables.map (·.backingTableName)).Nodup) {c : Catalogue}
    (hold : ∀ t ∈ tables, s.marks t.tableName = false →
      ∀ text, c.tables t.backingTableName = some text → i.creation t = .ok text) :
    (∀ t ∈ tables, ∃ text, i.creation t = .ok text ∧
      (c.executeAll (blocks.flatten.map (·.text))).tables t.backingTableName = some text) ∧
    ∀ name, (∀ t ∈ tables, t.backingTableName ≠ name) →
      (c.executeAll (blocks.flatten.map (·.text))).tables name = c.tables name := by
  induction hblocks generalizing c with
  | nil => exact ⟨by simp, fun _ _ => rfl⟩
  | cons hblock hrest ih =>
      next t block tables blocks =>
      rw [List.map_cons, List.nodup_cons] at hdistinct
      -- the later tables have other names, so the statements about this one leave them alone
      have hother : ∀ u ∈ tables, u.backingTableName ≠ t.backingTableName :=
        fun u hu heq => hdistinct.1 (heq ▸ List.mem_map_of_mem hu)
      obtain ⟨⟨text, hcreation, htext⟩, hframe⟩ :=
        tables_executeAll_block hblock (hold t (List.mem_cons_self ..))
      have hsplit : c.executeAll ((block :: blocks).flatten.map (·.text)) =
          (c.executeAll (block.map (·.text))).executeAll (blocks.flatten.map (·.text)) := by
        rw [List.flatten_cons, List.map_append, Catalogue.executeAll_append]
      obtain ⟨hcreated, hkept⟩ := ih hdistinct.2 (c := c.executeAll (block.map (·.text)))
        fun u hu hm text hthere =>
          hold u (List.mem_cons_of_mem _ hu) hm text ((hframe _ (hother u hu)).symm.trans hthere)
      rw [hsplit]
      refine ⟨List.forall_mem_cons.2 ⟨⟨text, hcreation, ?_⟩, hcreated⟩, ?_⟩
      · rw [hkept _ hother, htext]
      · intro name hname
        rw [hkept name fun u hu => hname u (List.mem_cons_of_mem _ hu),
          hframe name (hname t (List.mem_cons_self ..)).symm]

/-! ## Mirrors -/

/-- The engine has the planned tables and no others, each as it is created now. -/
structure Mirrors (i : Ingestor) (c : Catalogue) (tables : List JoinTable) : Prop where
  distinct : (tables.map (·.backingTableName)).Nodup
  entry : ∀ t ∈ tables, ∃ text, i.creation t = .ok text ∧
    c.tables t.backingTableName = some text
  only : ∀ name, c.tables name ≠ none → ∃ t ∈ tables, t.backingTableName = name

theorem creation_planTable (i : Ingestor) (all all' : List Place) (select select' : Bool)
    (t : TableStats) :
    i.creation (planTable i.model all select t) =
      i.creation (planTable i.model all' select' t) := by
  rw [creation, creation, createFor_planTable]

/-- What the engine has does not depend on the marks on columns. -/
theorem Mirrors.replan {c : Catalogue} {tables : List TableStats} {all : List Place} {select : Bool}
    (h : i.Mirrors c (tables.map (planTable i.model all select))) (all' : List Place)
    (select' : Bool) : i.Mirrors c (tables.map (planTable i.model all' select')) := by
  refine ⟨?_, ?_, ?_⟩
  · have hdistinct := h.distinct
    rw [List.map_map] at hdistinct ⊢
    exact hdistinct
  · intro t ht
    obtain ⟨u, hu, rfl⟩ := List.mem_map.1 ht
    obtain ⟨text, hcreation, htext⟩ := h.entry _ (List.mem_map_of_mem hu)
    exact ⟨text, (i.creation_planTable _ _ _ _ u).trans hcreation, htext⟩
  · intro name hname
    obtain ⟨t, ht, rfl⟩ := h.only name hname
    obtain ⟨u, hu, rfl⟩ := List.mem_map.1 ht
    exact ⟨_, List.mem_map_of_mem hu, rfl⟩

/-- What the engine has and no deletion drops is a table that is still there, and it is as created
now unless it is marked. -/
theorem Mirrors.exists_of_not_gone {c : Catalogue} {prior : List TableStats} {all : List Place}
    {select : Bool} {s : BatchState} (h : i.Mirrors c (prior.map (planTable i.model all select)))
    (hnames : (prior.map (·.tableName)).Nodup) (hs : BatchState.Tracks (.ofTables prior) s)
    {name text : String} (hthere : c.tables name = some text)
    (hkept : name ∉ (s.gone (s.tables.tables.map (planTable i.model all select))).map
      i.model.tableName) :
    ∃ t ∈ s.tables.tables, i.model.tableName t.tableName = name ∧
      (s.marks t.tableName = false →
        i.creation (planTable i.model all select t) = .ok text) := by
  obtain ⟨p, hp, rfl⟩ := h.only name (by simp [hthere])
  obtain ⟨t, ht, rfl⟩ := List.mem_map.1 hp
  obtain ⟨created, hcreation, hcreated⟩ := h.entry _ hp
  obtain rfl : created = text := Option.some.inj (hcreated.symm.trans hthere)
  have hbefore : (TableMap.ofTables prior).find? t.tableName = some t :=
    (TableMap.find?_ofTables_eq_some_iff hnames).2 ⟨ht, rfl⟩
  cases hnow : s.tables.find? t.tableName with
  | none =>
      -- a table that is not there now has been deleted, and as it is not planned it is dropped
      have hgone : t.tableName ∈ s.gone (s.tables.tables.map (planTable i.model all select)) := by
        refine BatchState.mem_gone.2 ⟨hs.dropped _ _ hbefore hnow, fun p hp hname => ?_⟩
        obtain ⟨u, hu, rfl⟩ := List.mem_map.1 hp
        have hfind := hs.wellFormed.find?_eq_some_iff.2 ⟨hu, hname⟩
        exact absurd (hfind.symm.trans hnow) (by simp)
      exact absurd (List.mem_map_of_mem hgone) hkept
  | some u =>
      obtain ⟨hu, hname⟩ := hs.wellFormed.find?_eq_some_iff.1 hnow
      refine ⟨u, hu, congrArg i.model.tableName hname, fun hm => ?_⟩
      rw [hname] at hm
      have hsame : s.tables.find? t.tableName = some t := by
        refine hs.kept _ _ hbefore ?_ ?_
        · intro hmem
          simp [BatchState.marks, hmem] at hm
        · intro hmem
          simp [BatchState.marks, hmem] at hm
      obtain rfl : u = t := Option.some.inj (hnow.symm.trans hsame)
      exact hcreation

theorem Succeeds.tracks {uploads : List Upload} {prior : List TableStats} {r : Success}
    (h : i.Succeeds uploads prior r) : BatchState.Tracks (.ofTables prior) r.state := by
  have hall := i.tracks_applyAll prior (Upload.sort uploads)
  rwa [h.applied] at hall

theorem Succeeds.fileInformation_eq {uploads : List Upload} {prior : List TableStats} {r : Success}
    (h : i.Succeeds uploads prior r) : (i.resultOf r).fileInformation = r.state.tables.tables :=
  h.tracks.wellFormed.sortTables_tables

/-- The tables there are after all files are the planned ones. -/
theorem Succeeds.exists_tables_eq {uploads : List Upload} {prior : List TableStats} {r : Success}
    (h : i.Succeeds uploads prior r) : ∃ all, r.join.tables =
      r.state.tables.tables.map (planTable i.model all i.selectJoinColumns) := by
  obtain ⟨-, -, hjoin⟩ := planJoin_eq_ok_iff.1 h.joined
  rw [h.tracks.wellFormed.sortTables_tables] at hjoin
  exact ⟨_, congrArg JoinPlan.tables hjoin⟩

/-- The statements of a successful batch bring an engine from the tables before it to the planned
ones. -/
theorem mirrors_of_succeeds {c : Catalogue} {prior : List TableStats} {all : List Place}
    {select : Bool} {uploads : List Upload} {r : Success}
    (h : i.Mirrors c (prior.map (planTable i.model all select)))
    (hnames : (prior.map (·.tableName)).Nodup) (hr : i.Succeeds uploads prior r)
    (hdistinct : (r.join.tables.map (·.backingTableName)).Nodup) :
    i.Mirrors (c.executeAll (r.statements.map (·.text) ++ [r.view.statement])) r.join.tables := by
  have hs := hr.tracks
  obtain ⟨all', htables⟩ := hr.exists_tables_eq
  obtain ⟨blocks, hblocks, hstatements⟩ := tableStatements_eq_ok hr.stated
  -- the engine once the tables that are gone have been dropped
  let dropped := (r.state.gone r.join.tables).map i.model.tableName
  let c' := c.executeAll (dropped.map fun name => (TableStatement.drop name).text)
  have hleft : ∀ name text, c'.tables name = some text →
      ∃ t ∈ r.join.tables, t.backingTableName = name ∧
        (r.state.marks t.tableName = false → i.creation t = .ok text) := by
    intro name text hthere
    rw [Catalogue.tables_executeAll_drops] at hthere
    split at hthere
    · cases hthere
    · next hkept =>
        simp only [dropped, htables] at hkept
        obtain ⟨t, ht, hname, hcreation⟩ :=
          (h.replan all' i.selectJoinColumns).exists_of_not_gone hnames hs hthere hkept
        exact ⟨_, htables ▸ List.mem_map_of_mem ht, hname, hcreation⟩
  obtain ⟨hcreated, hkept⟩ := tables_executeAll_blocks hblocks hdistinct (c := c') <| by
    intro t ht hm text hthere
    obtain ⟨u, hu, hname, hcreation⟩ := hleft _ _ hthere
    obtain rfl : u = t := List.inj_on_of_nodup_map hdistinct hu ht hname
    exact hcreation hm
  have hexecute : c.executeAll (r.statements.map (·.text) ++ [r.view.statement]) =
      (c'.executeAll (blocks.flatten.map (·.text))).replace r.view.name r.view.statement := by
    rw [hstatements, List.map_append, List.append_assoc, Catalogue.executeAll_append,
      Catalogue.executeAll_append, ← Catalogue.execute_view]
    simp only [c', dropped, List.map_map, Catalogue.executeAll, List.foldl_cons, List.foldl_nil,
      Function.comp_def]
  rw [hexecute]
  refine ⟨hdistinct, hcreated, fun name hname => ?_⟩
  by_contra hnone
  have hnone : ∀ t ∈ r.join.tables, t.backingTableName ≠ name :=
    fun t ht heq => hnone ⟨t, ht, heq⟩
  obtain ⟨text, hthere⟩ := Option.ne_none_iff_exists'.1 ((hkept name hnone) ▸ hname)
  obtain ⟨t, ht, heq, -⟩ := hleft name text hthere
  exact hnone t ht heq

end Ingestor

end TabularView
