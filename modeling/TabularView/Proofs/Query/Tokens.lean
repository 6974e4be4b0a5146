import TabularView.Proofs.Number.Text
import TabularView.Proofs.Query.Compile
import TabularView.Proofs.Sql.Token

set_option autoImplicit false

/-! # The tokens of a query

Between two pieces of a query that are words or names there is always a blank, a parenthesis or a
comma, and numbers are written without quotes. So a query is well spaced, and its tokens are those
of its pieces whatever its names and texts hold. What stands between quotes can then be read off the
pieces: `GlyphQuery.filterMap_quoted?_pieces` lists it for the query and
`GlyphQuery.filterMap_quoted?_boundsPieces` for its bounds. -/

namespace TabularView

open Sql (WellSpaced IsPlain StartsApart EndsApart IsSpacer Piece Token)

/-! ## Spacing -/

theorem SqlLiteral.wellSpaced_pieces (l : SqlLiteral) : WellSpaced l.pieces := by
  cases l with
  | text s => exact Sql.wellSpaced_text s
  | number x => exact Sql.wellSpaced_plain (isPlain_text x)
  | integer n => exact Sql.wellSpaced_plain (isWord_toString n).isPlain
  | timestamp t => exact (Sql.wellSpaced_text t.text).plain_cons (by decide) (by decide)

theorem Operator.isSpacer_symbol (op : Operator) : IsSpacer (" " ++ op.symbol ++ " ") := by
  cases op <;> decide

theorem Predicate.wellSpaced_pieces (p : Predicate) : WellSpaced p.pieces :=
  (Sql.wellSpaced_name p.column).spaced p.operator.isSpacer_symbol p.literal.wellSpaced_pieces

theorem AxisValue.wellSpaced_pieces (v : AxisValue) : WellSpaced v.pieces := by
  have hcolumn := Sql.wellSpaced_name v.column
  have hclose : WellSpaced [.plain ")"] := Sql.wellSpaced_plain (by decide)
  have hcall : ∀ {function : String} {inner : List Piece}, IsPlain function.toList →
      EndsApart function.toList → WellSpaced inner →
      WellSpaced (.plain function :: inner ++ [.plain ")"]) := by
    intro function inner hplain hend hinner
    exact (hinner.plain_cons hplain hend).append hclose (by decide)
  have hfunction : ∀ a : Aggregate, IsPlain (a.function ++ "(").toList ∧
      EndsApart (a.function ++ "(").toList := by
    intro a
    cases a <;> decide
  obtain ⟨column, aggregate, logarithmic⟩ := v
  cases aggregate with
  | none =>
      cases logarithmic with
      | false => exact hcolumn
      | true => exact hcall (by decide) (by decide) hcolumn
  | some a =>
      have haggregated := hcall (hfunction a).1 (hfunction a).2 hcolumn
      cases logarithmic with
      | false => exact haggregated
      | true => exact hcall (by decide) (by decide) haggregated

namespace GlyphQuery

variable (q : GlyphQuery)

theorem wellSpaced_selectPieces : WellSpaced q.selectPieces := by
  have hshown : ∀ group ∈ q.axes.map fun a => a.value.pieces ++
      [.plain " AS ", .name a.axis.label], WellSpaced group := by
    refine List.forall_mem_map.2 fun a _ => ?_
    exact a.value.wellSpaced_pieces.spaced (by decide) (Sql.wellSpaced_name _)
  have hcount := (Sql.wellSpaced_name "count").spaced (s := "\nFROM ") (by decide)
    (Sql.wellSpaced_name q.view)
  have hall := (WellSpaced.separated (s := ",\n  ") (by decide) hshown).spaced
    (s := ",\n  COUNT(*) AS ") (by decide) hcount
  exact hall.plain_cons (s := "SELECT\n  ") (by decide) (by decide)

theorem wellSpaced_wherePieces : WellSpaced q.wherePieces := by
  have hpredicates : ∀ group ∈ q.predicates.map (·.pieces), WellSpaced group :=
    List.forall_mem_map.2 fun p _ => p.wellSpaced_pieces
  unfold wherePieces
  split
  · exact Sql.wellSpaced_nil
  · exact (WellSpaced.separated (s := " AND ") (by decide) hpredicates).plain_cons
      (s := "\nWHERE ") (by decide) (by decide)

theorem wellSpaced_groupPieces : WellSpaced q.groupPieces := by
  have hcolumns := (Sql.wellSpaced_name q.x.value.column).spaced (s := ", ") (by decide)
    (Sql.wellSpaced_name q.y.value.column)
  exact hcolumns.plain_cons (s := "\nGROUP BY ") (by decide) (by decide)

theorem startsApart_groupPieces : StartsApart (Sql.render q.groupPieces).toList :=
  IsSpacer.startsApart (s := "\nGROUP BY ") (by decide) _

theorem startsApart_wherePieces : StartsApart (Sql.render q.wherePieces).toList := by
  unfold wherePieces
  split
  · exact Sql.startsApart_nil
  · exact IsSpacer.startsApart (s := "\nWHERE ") (by decide) _

theorem wellSpaced_groupedPieces : WellSpaced q.groupedPieces :=
  (q.wellSpaced_selectPieces.append q.wellSpaced_wherePieces q.startsApart_wherePieces).append
    q.wellSpaced_groupPieces q.startsApart_groupPieces

theorem wellSpaced_pieces : WellSpaced q.pieces := by
  have hordered : ∀ group ∈ q.axes.map fun a => ([.name a.axis.label,
      .plain (" " ++ a.direction.keyword)] : List Piece), WellSpaced group := by
    refine List.forall_mem_map.2 fun a _ => ?_
    have hkeyword : WellSpaced [.plain (" " ++ a.direction.keyword)] ∧
        StartsApart (Sql.render [.plain (" " ++ a.direction.keyword)]).toList := by
      cases a.direction with
      | ascending => exact ⟨Sql.wellSpaced_plain (by decide), by decide⟩
      | descending => exact ⟨Sql.wellSpaced_plain (by decide), by decide⟩
    exact (Sql.wellSpaced_name _).append hkeyword.1 hkeyword.2
  exact q.wellSpaced_groupedPieces.spaced (s := "\nORDER BY ") (by decide)
    (WellSpaced.separated (s := ", ") (by decide) hordered)

theorem wellSpaced_boundPieces (axis : Axis) : WellSpaced (boundPieces axis) := by
  have hmax := ((Sql.wellSpaced_name axis.label).spaced (s := ") AS ") (by decide)
    (Sql.wellSpaced_name ("max_" ++ axis.label)))
  have hmin := ((Sql.wellSpaced_name axis.label).spaced (s := ") AS ") (by decide)
    ((Sql.wellSpaced_name ("min_" ++ axis.label)).spaced (s := ", MAX(") (by decide) hmax))
  exact hmin.plain_cons (s := "MIN(") (by decide) (by decide)

theorem wellSpaced_boundsPieces : WellSpaced q.boundsPieces := by
  have hbounds : ∀ group ∈ [Axis.x, .y, .z].map boundPieces, WellSpaced group :=
    List.forall_mem_map.2 fun axis _ => wellSpaced_boundPieces axis
  have hinner := q.wellSpaced_groupedPieces.spaced (s := "\n) AS ") (by decide)
    (Sql.wellSpaced_name "glyphs")
  have hall := (WellSpaced.separated (s := ",\n  ") (by decide) hbounds).spaced
    (s := "\nFROM (\n") (by decide) hinner
  have hselect := hall.plain_cons (s := "SELECT\n  ") (by decide) (by decide)
  unfold boundsPieces
  simpa only [List.cons_append, List.append_assoc] using hselect

end GlyphQuery

/-! ## What is quoted -/

/-- The tokens between quotes that a literal has. -/
def SqlLiteral.quotedTokens : SqlLiteral → List Token
  | .text s => [.text s]
  | .number _ => []
  | .integer _ => []
  | .timestamp t => [.text t.text]

theorem SqlLiteral.filterMap_quoted?_pieces (l : SqlLiteral) :
    l.pieces.filterMap Piece.quoted? = l.quotedTokens := by
  cases l <;> rfl

/-- The tokens between quotes that a predicate has. -/
def Predicate.quotedTokens (p : Predicate) : List Token :=
  .name p.column :: p.literal.quotedTokens

theorem Predicate.filterMap_quoted?_pieces (p : Predicate) :
    p.pieces.filterMap Piece.quoted? = p.quotedTokens := by
  rw [quotedTokens, ← p.literal.filterMap_quoted?_pieces]
  rfl

theorem AxisValue.filterMap_quoted?_pieces (v : AxisValue) :
    v.pieces.filterMap Piece.quoted? = [.name v.column] := by
  unfold AxisValue.pieces
  cases v.aggregate <;> cases v.logarithmic <;> rfl

namespace GlyphQuery

variable (q : GlyphQuery)

/-- The tokens between quotes of a query without its order: each axis with its label, the number of
rows, the view, the filters, and the columns that make a group. -/
def quotedTokens : List Token :=
  q.axes.flatMap (fun a => [.name a.value.column, .name a.axis.label]) ++
    [.name "count", .name q.view] ++ q.predicates.flatMap (·.quotedTokens) ++
    [.name q.x.value.column, .name q.y.value.column]

theorem filterMap_quoted?_wherePieces :
    q.wherePieces.filterMap Piece.quoted? = q.predicates.flatMap (·.quotedTokens) := by
  unfold wherePieces
  split
  · next h => rw [h]; rfl
  · next h =>
      have hplain : Piece.quoted? (.plain "\nWHERE ") = none := rfl
      rw [List.filterMap_cons_none hplain, Sql.filterMap_quoted?_separated, List.flatMap_map]
      exact List.flatMap_congr fun p _ => p.filterMap_quoted?_pieces

theorem filterMap_quoted?_groupedPieces :
    q.groupedPieces.filterMap Piece.quoted? = q.quotedTokens := by
  have hselect : q.selectPieces.filterMap Piece.quoted? =
      q.axes.flatMap (fun a => [.name a.value.column, .name a.axis.label]) ++
        [.name "count", .name q.view] := by
    have haxis : ∀ a : CompiledAxis, (a.value.pieces ++
        ([.plain " AS ", .name a.axis.label] : List Piece)).filterMap Piece.quoted? =
          [.name a.value.column, .name a.axis.label] := by
      intro a
      rw [List.filterMap_append, a.value.filterMap_quoted?_pieces]
      rfl
    have hplain : Piece.quoted? (.plain "SELECT\n  ") = none := rfl
    rw [selectPieces, List.cons_append, List.filterMap_cons_none hplain, List.filterMap_append,
      Sql.filterMap_quoted?_separated, List.flatMap_map]
    rw [List.flatMap_congr fun a _ => haxis a]
    rfl
  rw [groupedPieces, List.filterMap_append, List.filterMap_append, hselect,
    q.filterMap_quoted?_wherePieces]
  rfl

theorem filterMap_quoted?_pieces :
    q.pieces.filterMap Piece.quoted? =
      q.quotedTokens ++ q.axes.map fun a => .name a.axis.label := by
  have hplain : Piece.quoted? (.plain "\nORDER BY ") = none := rfl
  rw [pieces, List.filterMap_append, q.filterMap_quoted?_groupedPieces,
    List.filterMap_cons_none hplain, Sql.filterMap_quoted?_separated, List.flatMap_map,
    List.map_eq_flatMap]
  rfl

/-- The names of the bounds of an axis, each after the label of what it bounds. -/
def boundNames (axis : Axis) : List Token :=
  [.name axis.label, .name ("min_" ++ axis.label), .name axis.label, .name ("max_" ++ axis.label)]

theorem filterMap_quoted?_boundsPieces :
    q.boundsPieces.filterMap Piece.quoted? =
      [Axis.x, .y, .z].flatMap boundNames ++ q.quotedTokens ++ [.name "glyphs"] := by
  have hselect : Piece.quoted? (.plain "SELECT\n  ") = none := rfl
  have hfrom : Piece.quoted? (.plain "\nFROM (\n") = none := rfl
  rw [boundsPieces, List.filterMap_append, List.cons_append, List.filterMap_cons_none hselect,
    List.filterMap_append, List.filterMap_cons_none hfrom, Sql.filterMap_quoted?_separated,
    q.filterMap_quoted?_groupedPieces]
  rfl

end GlyphQuery

end TabularView
