import TabularView.Proofs.Fallible
import TabularView.Proofs.Number.Text
import TabularView.Proofs.Storage.EngineNames
import TabularView.Proofs.View.Projections
import TabularView.Storage.Statement

set_option autoImplicit false

/-! # The tokens of table statements

A statement that creates a table names the table and its columns between double quotes, and these
are read back whatever they hold. Its location stands between single quotes as it is: what the
engine reads there is the location exactly if the bucket, the workspace, the model and the table
have no single quote in their names (`TableStatement.tokens_createFor`). -/

namespace TabularView

open Sql (WellSpaced IsSpacer IsWord Piece Token)

/-! ## Storage types -/

/-- The tokens of a storage type. -/
def StorageType.tokens : StorageType → List Token
  | .varchar width => [.word "varchar", .symbol '(', .word (toString width), .symbol ')']
  | .double => [.word "double"]
  | .timestamp => [.word "timestamp"]
  | .string => [.word "string"]

/-- A storage type is read as it is meant; it has no quotes. -/
theorem StorageType.tokens_text (type : StorageType) :
    Sql.IsPlain (" " ++ type.text).toList ∧ Sql.tokens (" " ++ type.text) = type.tokens := by
  cases type with
  | varchar width =>
      have hword : IsWord (toString width) := isWord_toString (Int.ofNat width)
      have hopen : WellSpaced [.plain " varchar(", .plain (toString width)] :=
        (Sql.wellSpaced_plain hword.isPlain).plain_cons (by decide) (by decide)
      have hall := hopen.append (b := [.plain ")"]) (Sql.wellSpaced_plain (by decide)) (by decide)
      have htext : Sql.render [.plain " varchar(", .plain (toString width), .plain ")"] =
          " " ++ (varchar width).text := by
        simp [Sql.render, Piece.render, text, ← String.append_assoc]
      have htokens := hall.tokens_render
      constructor
      · have hfront : Sql.IsPlain " ".toList ∧ Sql.IsPlain "varchar(".toList := by decide
        have hback : Sql.IsPlain ")".toList := by decide
        simp only [text, String.toList_append, Sql.IsPlain, List.forall_mem_append]
        exact ⟨hfront.1, ⟨hfront.2, hword.isPlain⟩, hback⟩
      · rw [← htext]
        refine htokens.trans ?_
        simp only [List.cons_append, List.nil_append, List.flatMap_cons, List.flatMap_nil,
          Piece.tokens, hword.tokens]
        rfl
  | double => exact ⟨by decide, by decide⟩
  | timestamp => exact ⟨by decide, by decide⟩
  | string => exact ⟨by decide, by decide⟩

/-! ## Locations -/

/-- A table has a directory if the names it is made of can be parts of a path. -/
theorem Model.dataDirectory_eq_ok_iff {m : Model} {table directory : String} :
    m.dataDirectory table = .ok directory ↔
      isSegment m.workspace = true ∧ isSegment m.model = true ∧ isSegment table = true ∧
        directory =
          Text.lowerAscii (m.workspace ++ "/" ++ m.model ++ "/data/" ++ table ++ "/") := by
  simp only [dataDirectory, bind_eq_ok_iff, segment_eq_ok_iff, Except.ok.injEq]
  constructor
  · rintro ⟨_, ⟨hworkspace, rfl⟩, _, ⟨hmodel, rfl⟩, _, ⟨htable, rfl⟩, rfl⟩
    exact ⟨hworkspace, hmodel, htable, rfl⟩
  · rintro ⟨hworkspace, hmodel, htable, rfl⟩
    exact ⟨_, ⟨hworkspace, rfl⟩, _, ⟨hmodel, rfl⟩, _, ⟨htable, rfl⟩, rfl⟩

namespace Text

theorem mem_trimEnd_iff {c d : Char} (h : d ≠ c) (s : String) :
    d ∈ (trimEnd c s).toList ↔ d ∈ s.toList := by
  have hdrop : ∀ l : List Char, d ∈ l.dropWhile (· == c) ↔ d ∈ l := by
    intro l
    induction l with
    | nil => exact Iff.rfl
    | cons e l ih =>
        by_cases he : e = c
        · subst he
          simp [ih, h]
        · simp [he]
  simp [trimEnd, hdrop]

end Text

/-- The place of a directory in a bucket. -/
def bucketLocation (bucket directory : String) : String :=
  "s3://" ++ Text.trimEnd '/' bucket ++ "/" ++ directory

theorem quote_mem_bucketLocation_iff (bucket : String) {table directory : String} {m : Model}
    (h : m.dataDirectory table = .ok directory) :
    '\x27' ∈ (bucketLocation bucket directory).toList ↔
      '\x27' ∈ bucket.toList ∨ '\x27' ∈ m.workspace.toList ∨ '\x27' ∈ m.model.toList ∨
        '\x27' ∈ table.toList := by
  obtain ⟨-, -, -, rfl⟩ := Model.dataDirectory_eq_ok_iff.1 h
  have hbucket := @Text.mem_trimEnd_iff '/' '\x27' (by decide) bucket
  have hlower := fun s => @Text.mem_lowerAscii_iff '\x27' (by decide) s
  simp only [bucketLocation, String.toList_append, List.mem_append, hbucket, hlower]
  have hplain : '\x27' ∉ "s3://".toList ∧ '\x27' ∉ "/".toList ∧ '\x27' ∉ "/data/".toList := by
    decide
  simp only [hplain, false_or, or_false, or_assoc]

/-! ## Statements -/

/-- The tokens that declare a table, up to its location. -/
def JoinTable.declaration (t : JoinTable) : List Token :=
  [.word "CREATE", .word "EXTERNAL", .word "TABLE", .word "IF", .word "NOT", .word "EXISTS",
    .name t.backingTableName, .symbol '('] ++
  List.intercalate [.symbol ',']
    ((sortByIndex t.columns).map fun c => .name c.columnName :: c.storageType.tokens) ++
  [.symbol ')', .word "STORED", .word "AS", .word "PARQUET", .word "LOCATION"]

namespace TableStatement

/-- The pieces of a statement before its location. -/
def declarationPieces (table : String) (columns : List (String × StorageType)) : List Piece :=
  [.plain "CREATE EXTERNAL TABLE IF NOT EXISTS ", .name table, .plain " (\n"] ++
    Sql.separated ",\n" (columns.map fun (name, type) =>
      [.plain "  ", .name name, .plain (" " ++ type.text)])

theorem wellSpaced_declarationPieces (table : String) (columns : List (String × StorageType)) :
    WellSpaced (declarationPieces table columns) := by
  have hcolumn : ∀ group ∈ columns.map (fun (name, type) =>
      ([.plain "  ", .name name, .plain (" " ++ type.text)] : List Piece)), WellSpaced group := by
    refine List.forall_mem_map.2 fun (name, type) _ => ?_
    have htype := Sql.wellSpaced_plain type.tokens_text.1
    have happart : Sql.StartsApart (Sql.render [.plain (" " ++ type.text)]).toList := by
      intro c hc
      obtain rfl : ' ' = c := by simpa [Sql.render, Piece.render] using hc
      decide
    exact ((Sql.wellSpaced_name name).append htype happart).plain_cons (s := "  ") (by decide)
      (by decide)
  have hcolumns := WellSpaced.separated (s := ",\n") (by decide) hcolumn
  exact ((Sql.wellSpaced_name table).spaced (s := " (\n") (by decide) hcolumns).plain_cons
    (s := "CREATE EXTERNAL TABLE IF NOT EXISTS ") (by decide) (by decide)

theorem flatMap_tokens_declarationPieces (table : String) (columns : List (String × StorageType)) :
    (declarationPieces table columns).flatMap Piece.tokens =
      [.word "CREATE", .word "EXTERNAL", .word "TABLE", .word "IF", .word "NOT", .word "EXISTS",
        .name table, .symbol '('] ++
      List.intercalate [.symbol ','] (columns.map fun c => .name c.1 :: c.2.tokens) := by
  have hcreate : Sql.tokens "CREATE EXTERNAL TABLE IF NOT EXISTS " = [.word "CREATE",
      .word "EXTERNAL", .word "TABLE", .word "IF", .word "NOT", .word "EXISTS"] := by decide
  have hopen : Sql.tokens " (\n" = [.symbol '('] := by decide
  have hcomma : Sql.tokens ",\n" = [.symbol ','] := by decide
  have hindent : Sql.tokens "  " = [] := by decide
  rw [declarationPieces, List.flatMap_append, Sql.flatMap_tokens_separated, hcomma, List.map_map]
  simp only [List.flatMap_cons, List.flatMap_nil, Piece.tokens, hcreate, hopen]
  congr 2
  refine List.map_congr_left fun c _ => ?_
  simp [Piece.tokens, hindent, c.2.tokens_text.2]

theorem tokens_create (table : String) (columns : List (String × StorageType))
    (location : String) :
    Sql.tokens (create table columns location).text =
      (declarationPieces table columns).flatMap Piece.tokens ++
        [.symbol ')', .word "STORED", .word "AS", .word "PARQUET", .word "LOCATION"] ++
        Sql.tokens ("'" ++ location ++ "'") := by
  have hend : Sql.tokens "\n)\nSTORED AS PARQUET\nLOCATION " =
      [.symbol ')', .word "STORED", .word "AS", .word "PARQUET", .word "LOCATION"] := by decide
  have hread := (wellSpaced_declarationPieces table columns).tokens_append_spacer
    (s := "\n)\nSTORED AS PARQUET\nLOCATION ") (by decide) ("'" ++ location ++ "'").toList
  rw [hend] at hread
  have htext : (create table columns location).text.toList =
      (Sql.render (declarationPieces table columns)).toList ++
        ("\n)\nSTORED AS PARQUET\nLOCATION ".toList ++ ("'" ++ location ++ "'").toList) := by
    show (Sql.render (declarationPieces table columns ++ _)).toList = _
    rw [Sql.render_append, String.toList_append]
    simp [Sql.render, Piece.render]
  rw [Sql.tokens, htext]
  exact hread

/-- A location is read back if it has no single quote in it, and only then. -/
theorem tokens_location_iff (location : String) :
    Sql.tokens ("'" ++ location ++ "'") = [.text location] ↔ '\x27' ∉ location.toList := by
  have hread := @Sql.tokens_raw_iff '\x27' rfl location.toList
  simpa [Sql.tokens, Sql.quotedToken] using hread

theorem tokens_eq_declaration_append {bucket : String} {m : Model} {t : JoinTable}
    {s : TableStatement} (h : createFor bucket m t = .ok s) :
    ∃ directory, m.dataDirectory t.tableName = .ok directory ∧
      Sql.tokens s.text =
        t.declaration ++ Sql.tokens ("'" ++ bucketLocation bucket directory ++ "'") := by
  obtain ⟨directory, hdirectory, hs⟩ := bind_eq_ok_iff.1 h
  obtain rfl := Except.ok.inj hs
  refine ⟨directory, hdirectory, ?_⟩
  rw [tokens_create, flatMap_tokens_declarationPieces, List.map_map]
  simp only [JoinTable.declaration, List.append_assoc]
  rfl

/-- A statement that creates a table names the table and its columns in the order of their indices,
each with its storage type, and ends with what the engine reads of the location between single
quotes. That is the location itself exactly if nothing it is made of has a single quote in it. -/
theorem tokens_createFor {bucket : String} {m : Model} {t : JoinTable} {s : TableStatement}
    (h : createFor bucket m t = .ok s) :
    ∃ directory, m.dataDirectory t.tableName = .ok directory ∧
      Sql.tokens s.text =
        t.declaration ++ Sql.tokens ("'" ++ bucketLocation bucket directory ++ "'") ∧
      (Sql.tokens s.text = t.declaration ++ [.text (bucketLocation bucket directory)] ↔
        '\x27' ∉ bucket.toList ∧ '\x27' ∉ m.workspace.toList ∧ '\x27' ∉ m.model.toList ∧
          '\x27' ∉ t.tableName.toList) ∧
      (sortByIndex t.columns).Perm t.columns ∧
      (sortByIndex t.columns).Pairwise fun a b => a.columnIndex ≤ b.columnIndex := by
  obtain ⟨directory, hdirectory, htokens⟩ := tokens_eq_declaration_append h
  have hquotes := quote_mem_bucketLocation_iff bucket hdirectory
  refine ⟨directory, hdirectory, htokens, ?_, sortByIndex_perm _, pairwise_sortByIndex _⟩
  rw [← not_or, ← not_or, ← not_or, ← hquotes, ← tokens_location_iff, htokens,
    List.append_cancel_left_eq]

/-- A table of a model whose first column stands last. -/
def ordersTable (m : Model) : JoinTable where
  tableName := "orders"
  backingTableName := m.tableName "orders"
  fileName := "orders.csv"
  columns := [⟨1, "total", .number, none, false, true⟩, ⟨0, "co\"de", .string, some 3, false, true⟩]

/-- Names without single quotes are read back. -/
theorem tokens_createFor_orders :
    ∃ s, createFor "bucket/" ⟨"ws", "m"⟩ (ordersTable ⟨"ws", "m"⟩) = .ok s ∧
      Sql.tokens s.text =
        (ordersTable ⟨"ws", "m"⟩).declaration ++ [.text "s3://bucket/ws/m/data/orders/"] := by
  have hcreated : ∃ s, createFor "bucket/" ⟨"ws", "m"⟩ (ordersTable ⟨"ws", "m"⟩) = .ok s :=
    ⟨_, rfl⟩
  obtain ⟨s, hs⟩ := hcreated
  obtain ⟨directory, hdirectory, -, hread, -⟩ := tokens_createFor hs
  obtain rfl : directory = "ws/m/data/orders/" := (Except.ok.inj hdirectory).symm.trans (by decide)
  exact ⟨s, hs, hread.2 (by decide)⟩

/-- A single quote in the name of a workspace ends the location, and what is left of it is read as
further parts of the statement. -/
theorem tokens_createFor_apostrophe :
    ∃ s, createFor "b" ⟨"o\x27brien", "m"⟩ (ordersTable ⟨"o\x27brien", "m"⟩) = .ok s ∧
      Sql.tokens s.text = (ordersTable ⟨"o\x27brien", "m"⟩).declaration ++
        [.text "s3://b/o", .word "brien/m/data/orders/", .unclosed ""] ∧
      Sql.tokens s.text ≠ (ordersTable ⟨"o\x27brien", "m"⟩).declaration ++
        [.text "s3://b/o\x27brien/m/data/orders/"] := by
  have hcreated : ∃ s,
      createFor "b" ⟨"o\x27brien", "m"⟩ (ordersTable ⟨"o\x27brien", "m"⟩) = .ok s := ⟨_, rfl⟩
  obtain ⟨s, hs⟩ := hcreated
  obtain ⟨directory, hdirectory, htokens⟩ := tokens_eq_declaration_append hs
  obtain rfl : directory = "o\x27brien/m/data/orders/" :=
    (Except.ok.inj hdirectory).symm.trans (by decide)
  refine ⟨s, hs, htokens.trans (congrArg _ (by decide)), fun heq => ?_⟩
  have hlocation := List.append_cancel_left (htokens.symm.trans heq)
  exact absurd hlocation (by decide)

end TableStatement

end TabularView
