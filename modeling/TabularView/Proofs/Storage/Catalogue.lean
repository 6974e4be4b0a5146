import Mathlib.Data.List.Basic
import TabularView.Storage.Statement

set_option autoImplicit false

/-! # The engine's catalogue

An engine is known here by its tables and views, each with the statement that made it. It reads a
statement as text: the words that it starts with and the quoted name after them. Creating a table
that exists changes nothing, so a table keeps the columns it was first created with until it is
dropped.

`execute_drop`, `execute_create` and `execute_view` say what the statements written by this library
do to it. Whatever a list of statements does to a name can be done in one step (`Effect`), and doing
it again changes nothing (`executeAll_executeAll`). -/

namespace TabularView

/-! ## Reading statements -/

/-- What a statement asks an engine to do. -/
inductive Command
  | dropTable (name : String)
  | createTable (name : String)
  | replaceView (name : String)
deriving DecidableEq, Repr

namespace Command

/-- The words in front of the name. -/
def words : Command → String
  | .dropTable _ => "DROP TABLE IF EXISTS "
  | .createTable _ => "CREATE EXTERNAL TABLE IF NOT EXISTS "
  | .replaceView _ => "CREATE OR REPLACE VIEW "

/-- The name that a text starts with, in double quotes. -/
def quotedName? : List Char → Option String
  | '"' :: rest => (Sql.readQuoted '"' rest).map fun (name, _) => String.ofList name
  | _ => none

/-- The command of a text that starts with its words. -/
def after? (command : String → Command) (text : String) : Option Command :=
  ((command "").words.toList.isPrefixOf? text.toList).bind fun rest =>
    (quotedName? rest).map command

/-- The command of a statement. -/
def ofText? (text : String) : Option Command :=
  (after? .dropTable text).or <| (after? .createTable text).or <| after? .replaceView text

theorem isPrefixOf?_append (words rest : List Char) :
    words.isPrefixOf? (words ++ rest) = some rest := by
  induction words with
  | nil => cases rest <;> rfl
  | cons c words ih => simp [List.isPrefixOf?, ih]

/-- A name in quotes is read after the words of its command, unless one more quote follows. -/
theorem after?_append (command : String → Command) (name : String) {rest : String}
    (h : rest.toList.head? ≠ some '"') :
    after? command ((command "").words ++ (Sql.quoteName name ++ rest)) = some (command name) := by
  have hread : Sql.readQuoted '"' (Sql.doubled '"' name.toList ++ '"' :: rest.toList) =
      some (name.toList, rest.toList) :=
    Sql.readQuoted_doubled '"' name.toList rest.toList h
  rw [after?, String.toList_append, isPrefixOf?_append]
  simp [Sql.quoteName, Sql.quoteChars, quotedName?, hread]

/-- Words that differ from those of a command are not read as it. -/
theorem after?_eq_none {command : String → Command} {words : String}
    (h : ∀ rest, (command "").words.toList.isPrefixOf? (words.toList ++ rest) = none)
    (rest : String) : after? command (words ++ rest) = none := by
  rw [after?, String.toList_append, h]
  rfl

theorem ofText?_drop (table : String) :
    ofText? (TableStatement.drop table).text = some (.dropTable table) := by
  have htext : (TableStatement.drop table).text =
      (dropTable "").words ++ (Sql.quoteName table ++ "") := rfl
  rw [ofText?, htext, after?_append .dropTable table (by simp)]
  rfl

theorem ofText?_create (table : String) (columns : List (String × StorageType))
    (location : String) :
    ofText? (TableStatement.create table columns location).text = some (.createTable table) := by
  obtain ⟨rest, htext⟩ : ∃ rest, (TableStatement.create table columns location).text =
      (createTable "").words ++ (Sql.quoteName table ++ (" (\n" ++ rest)) := ⟨_, rfl⟩
  rw [ofText?, htext, after?_eq_none (fun _ => rfl),
    after?_append .createTable table (by simp)]
  rfl

theorem ofText?_view (v : ViewPlan) : ofText? v.statement = some (.replaceView v.name) := by
  obtain ⟨rest, htext⟩ : ∃ rest, v.statement =
      (replaceView "").words ++ (Sql.quoteName v.name ++ (" AS\nSELECT\n  " ++ rest)) := ⟨_, rfl⟩
  rw [ofText?, htext, after?_eq_none (fun _ => rfl), after?_eq_none (fun _ => rfl),
    after?_append .replaceView v.name (by simp)]
  rfl

/-- The table or view that a command is about. -/
def name : Command → String
  | .dropTable name => name
  | .createTable name => name
  | .replaceView name => name

end Command

/-- The table that a statement is about. -/
def TableStatement.table : TableStatement → String
  | .drop table => table
  | .create table _ _ => table

theorem Command.name_ofText? (s : TableStatement) :
    (Command.ofText? s.text).map (·.name) = some s.table := by
  cases s with
  | drop table =>
      rw [ofText?_drop]
      rfl
  | create table columns location =>
      rw [ofText?_create]
      rfl

/-! ## The catalogue -/

/-- The tables and views of an engine, each with the statement that made it. -/
structure Catalogue where
  tables : String → Option String := fun _ => none
  views : String → Option String := fun _ => none

namespace Catalogue

/-- The catalogue without a table. -/
def drop (c : Catalogue) (name : String) : Catalogue :=
  { c with tables := fun other => if other = name then none else c.tables other }

/-- The catalogue with a table, unless it has one of that name already. -/
def create (c : Catalogue) (name text : String) : Catalogue :=
  { c with tables := fun other =>
      if other = name then (c.tables name).or (some text) else c.tables other }

/-- The catalogue with a view, in place of the one of that name. -/
def replace (c : Catalogue) (name text : String) : Catalogue :=
  { c with views := fun other => if other = name then some text else c.views other }

/-- The catalogue after a statement; one that it cannot read changes nothing. -/
def execute (c : Catalogue) (text : String) : Catalogue :=
  match Command.ofText? text with
  | some (.dropTable name) => c.drop name
  | some (.createTable name) => c.create name text
  | some (.replaceView name) => c.replace name text
  | none => c

theorem execute_drop (c : Catalogue) (table : String) :
    c.execute (TableStatement.drop table).text = c.drop table := by
  rw [execute, Command.ofText?_drop]

theorem execute_create (c : Catalogue) (table : String) (columns : List (String × StorageType))
    (location : String) :
    c.execute (TableStatement.create table columns location).text =
      c.create table (TableStatement.create table columns location).text := by
  rw [execute, Command.ofText?_create]

theorem execute_view (c : Catalogue) (v : ViewPlan) :
    c.execute v.statement = c.replace v.name v.statement := by
  rw [execute, Command.ofText?_view]

/-- The catalogue after statements in order. -/
def executeAll (c : Catalogue) (texts : List String) : Catalogue :=
  texts.foldl execute c

theorem executeAll_append (c : Catalogue) (texts texts' : List String) :
    c.executeAll (texts ++ texts') = (c.executeAll texts).executeAll texts' :=
  List.foldl_append ..

/-- Dropping tables leaves the others as they are. -/
theorem tables_executeAll_drops (c : Catalogue) (names : List String) (name : String) :
    (c.executeAll (names.map fun dropped => (TableStatement.drop dropped).text)).tables name =
      if name ∈ names then none else c.tables name := by
  induction names generalizing c with
  | nil => rfl
  | cons dropped rest ih =>
      have hstep : c.executeAll ((dropped :: rest).map fun dropped =>
          (TableStatement.drop dropped).text) =
          (c.drop dropped).executeAll (rest.map fun dropped =>
            (TableStatement.drop dropped).text) := by
        rw [← execute_drop]
        rfl
      rw [hstep, ih]
      by_cases hmem : name ∈ rest
      · simp [hmem]
      · simp [hmem, drop]

end Catalogue

/-! ## What statements do to one name -/

/-- What statements can do to what is known under a name: settle it, whatever it was, or fill it in
if there was nothing. -/
inductive Effect
  | settle (entry : Option String)
  | fill (entry : Option String)

namespace Effect

/-- What is known under a name after an effect. -/
def apply : Effect → Option String → Option String
  | settle entry, _ => entry
  | fill entry, before => before.or entry

/-- One effect after another. -/
def andThen : Effect → Effect → Effect
  | _, settle entry => settle entry
  | settle before, fill entry => settle (before.or entry)
  | fill before, fill entry => fill (before.or entry)

theorem apply_andThen (e e' : Effect) (before : Option String) :
    (e.andThen e').apply before = e'.apply (e.apply before) := by
  cases e' with
  | settle entry => cases e <;> rfl
  | fill entry =>
      cases e with
      | settle _ => rfl
      | fill _ => exact Option.or_assoc.symm

/-- What has been settled or filled in once is so for good. -/
theorem apply_apply (e : Effect) (before : Option String) :
    e.apply (e.apply before) = e.apply before := by
  cases e with
  | settle _ => rfl
  | fill entry => cases before <;> cases entry <;> rfl

theorem apply_fill_none (before : Option String) : (fill none).apply before = before :=
  Option.or_none

end Effect

namespace Catalogue

/-- What a statement does to the table and the view of a name. -/
theorem exists_effects_execute (text name : String) :
    ∃ onTable onView : Effect, ∀ c : Catalogue,
      (c.execute text).tables name = onTable.apply (c.tables name) ∧
      (c.execute text).views name = onView.apply (c.views name) := by
  have hkeep := Effect.apply_fill_none
  cases hread : Command.ofText? text with
  | none =>
      refine ⟨.fill none, .fill none, fun c => ?_⟩
      rw [execute, hread, hkeep, hkeep]
      exact ⟨rfl, rfl⟩
  | some command =>
      by_cases hname : name = command.name
      · subst hname
        cases command with
        | dropTable other =>
            refine ⟨.settle none, .fill none, fun c => ?_⟩
            rw [execute, hread, hkeep]
            exact ⟨if_pos rfl, rfl⟩
        | createTable other =>
            refine ⟨.fill (some text), .fill none, fun c => ?_⟩
            rw [execute, hread, hkeep]
            exact ⟨if_pos rfl, rfl⟩
        | replaceView other =>
            refine ⟨.fill none, .settle (some text), fun c => ?_⟩
            rw [execute, hread, hkeep]
            exact ⟨rfl, if_pos rfl⟩
      · refine ⟨.fill none, .fill none, fun c => ?_⟩
        rw [execute, hread, hkeep, hkeep]
        cases command with
        | dropTable other => exact ⟨if_neg hname, rfl⟩
        | createTable other => exact ⟨if_neg hname, rfl⟩
        | replaceView other => exact ⟨rfl, if_neg hname⟩

/-- Statements one after the other still have one effect on each name. -/
theorem exists_effects_executeAll (texts : List String) (name : String) :
    ∃ onTable onView : Effect, ∀ c : Catalogue,
      (c.executeAll texts).tables name = onTable.apply (c.tables name) ∧
      (c.executeAll texts).views name = onView.apply (c.views name) := by
  induction texts with
  | nil =>
      refine ⟨.fill none, .fill none, fun c => ?_⟩
      rw [Effect.apply_fill_none, Effect.apply_fill_none]
      exact ⟨rfl, rfl⟩
  | cons text rest ih =>
      obtain ⟨onTable, onView, hfirst⟩ := exists_effects_execute text name
      obtain ⟨onTable', onView', hrest⟩ := ih
      refine ⟨onTable.andThen onTable', onView.andThen onView', fun c => ?_⟩
      obtain ⟨htable, hview⟩ := hrest (c.execute text)
      rw [Effect.apply_andThen, Effect.apply_andThen, ← (hfirst c).1, ← (hfirst c).2]
      exact ⟨htable, hview⟩

/-- Executing statements twice is executing them once. -/
theorem executeAll_executeAll (c : Catalogue) (texts : List String) :
    (c.executeAll texts).executeAll texts = c.executeAll texts := by
  have heffects := exists_effects_executeAll texts
  have htables : ((c.executeAll texts).executeAll texts).tables = (c.executeAll texts).tables := by
    funext name
    obtain ⟨onTable, _, heffect⟩ := heffects name
    rw [(heffect _).1, (heffect c).1, onTable.apply_apply]
  have hviews : ((c.executeAll texts).executeAll texts).views = (c.executeAll texts).views := by
    funext name
    obtain ⟨_, onView, heffect⟩ := heffects name
    rw [(heffect _).2, (heffect c).2, onView.apply_apply]
  exact congrArg₂ Catalogue.mk htables hviews

/-- Executing some of the statements beforehand makes no difference. -/
theorem executeAll_of_prefix (c : Catalogue) {first texts : List String} (h : first <+: texts) :
    (c.executeAll first).executeAll texts = c.executeAll texts := by
  obtain ⟨rest, rfl⟩ := h
  rw [executeAll_append, executeAll_append, executeAll_executeAll]

/-- Table statements leave views alone. -/
theorem views_executeAll_tableStatements (c : Catalogue) (statements : List TableStatement) :
    (c.executeAll (statements.map (·.text))).views = c.views := by
  induction statements generalizing c with
  | nil => rfl
  | cons statement rest ih =>
      rw [List.map_cons, executeAll, List.foldl_cons]
      refine (ih _).trans ?_
      cases statement with
      | drop table =>
          rw [execute_drop]
          rfl
      | create table columns location =>
          rw [execute_create]
          rfl

end Catalogue

end TabularView
