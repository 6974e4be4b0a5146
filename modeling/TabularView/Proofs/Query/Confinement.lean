import TabularView.Proofs.Query.Tokens

set_option autoImplicit false

/-! # What names and texts can change in a query

The names in a query come from uploaded tables and the texts from whoever filters an axis. Neither
can change what the engine is asked for: all a name or a text does is stand between its own quotes
(`compileBindings_confined`).

Masking a query empties its names and texts and keeps all else. Bindings that agree in all but their
names and texts have the same outline; they compile to the same masked query. -/

namespace TabularView

open Sql (Piece Token)

/-! ## Masked queries -/

/-- The literal without its text; a point in time is not a text that someone chose. -/
def SqlLiteral.masked : SqlLiteral → SqlLiteral
  | .text _ => .text ""
  | l => l

/-- The predicate without its column and its text. -/
def Predicate.masked (p : Predicate) : Predicate :=
  { p with column := "", literal := p.literal.masked }

/-- The value without its column. -/
def AxisValue.masked (v : AxisValue) : AxisValue :=
  { v with column := "" }

/-- The axis without its column and its text. -/
def CompiledAxis.masked (a : CompiledAxis) : CompiledAxis :=
  { a with value := a.value.masked, predicate := a.predicate.map (·.masked) }

/-- The query without its view, its columns and its texts. -/
def GlyphQuery.masked (q : GlyphQuery) : GlyphQuery :=
  { view := "", x := q.x.masked, y := q.y.masked, z := q.z.masked }

theorem SqlLiteral.map_masked_pieces (l : SqlLiteral) :
    l.masked.pieces.map Piece.masked = l.pieces.map Piece.masked := by
  cases l <;> rfl

theorem Predicate.map_masked_pieces (p : Predicate) :
    p.masked.pieces.map Piece.masked = p.pieces.map Piece.masked := by
  simp only [pieces, masked, List.map_cons, p.literal.map_masked_pieces, Piece.masked]

theorem AxisValue.map_masked_pieces (v : AxisValue) :
    v.masked.pieces.map Piece.masked = v.pieces.map Piece.masked := by
  obtain ⟨column, aggregate, logarithmic⟩ := v
  cases aggregate <;> cases logarithmic <;> rfl

namespace GlyphQuery

variable (q : GlyphQuery)

theorem axes_masked : q.masked.axes = q.axes.map (·.masked) := rfl

theorem predicates_masked : q.masked.predicates = q.predicates.map (·.masked) := by
  rw [predicates, axes_masked, List.filterMap_map, predicates, List.map_filterMap]
  rfl

theorem map_masked_separated_congr {α : Type} (sep : String) {f g : α → List Piece}
    (h : ∀ a, (f a).map Piece.masked = (g a).map Piece.masked) (l : List α) :
    (Sql.separated sep (l.map f)).map Piece.masked =
      (Sql.separated sep (l.map g)).map Piece.masked := by
  rw [Sql.map_masked_separated, Sql.map_masked_separated, List.map_map, List.map_map]
  exact congrArg (Sql.separated sep) (List.map_congr_left fun a _ => h a)

theorem map_masked_selectPieces :
    q.masked.selectPieces.map Piece.masked = q.selectPieces.map Piece.masked := by
  have haxis : ∀ a : CompiledAxis, (a.masked.value.pieces ++
      ([.plain " AS ", .name a.masked.axis.label] : List Piece)).map Piece.masked =
        (a.value.pieces ++
          ([.plain " AS ", .name a.axis.label] : List Piece)).map Piece.masked := by
    intro a
    rw [List.map_append, List.map_append]
    exact congrArg (· ++ _) a.value.map_masked_pieces
  have hshown := map_masked_separated_congr ",\n  " haxis q.axes
  simp only [selectPieces, axes_masked, List.map_map, List.map_append, List.map_cons]
  exact congrArg (_ :: · ++ _) hshown

theorem map_masked_wherePieces :
    q.masked.wherePieces.map Piece.masked = q.wherePieces.map Piece.masked := by
  have hpredicates := map_masked_separated_congr " AND " Predicate.map_masked_pieces q.predicates
  unfold wherePieces
  rw [predicates_masked]
  cases h : q.predicates with
  | nil => rfl
  | cons p rest =>
      rw [h] at hpredicates
      simp only [List.map_cons, List.map_map] at hpredicates ⊢
      exact congrArg (_ :: ·) hpredicates

theorem map_masked_groupedPieces :
    q.masked.groupedPieces.map Piece.masked = q.groupedPieces.map Piece.masked := by
  simp only [groupedPieces, List.map_append, map_masked_selectPieces, map_masked_wherePieces]
  rfl

theorem map_masked_pieces : q.masked.pieces.map Piece.masked = q.pieces.map Piece.masked := by
  simp only [pieces, List.map_append, map_masked_groupedPieces]
  rfl

theorem map_masked_boundsPieces :
    q.masked.boundsPieces.map Piece.masked = q.boundsPieces.map Piece.masked := by
  simp only [boundsPieces, List.map_append, List.map_cons, map_masked_groupedPieces]

/-- A query with the same mask is read as the same words and symbols, and with as many names and
texts in the same places. -/
theorem map_masked_tokens_of_masked_eq {q q' : GlyphQuery} (h : q.masked = q'.masked) :
    (Sql.tokens q.text).map Token.masked = (Sql.tokens q'.text).map Token.masked ∧
      (Sql.tokens q.boundsText).map Token.masked = (Sql.tokens q'.boundsText).map Token.masked := by
  have htext : ∀ q : GlyphQuery, (Sql.tokens q.text).map Token.masked =
      (q.masked.pieces.map Piece.masked).flatMap Piece.tokens := by
    intro q
    rw [q.map_masked_pieces]
    exact q.wellSpaced_pieces.map_masked_tokens
  have hbounds : ∀ q : GlyphQuery, (Sql.tokens q.boundsText).map Token.masked =
      (q.masked.boundsPieces.map Piece.masked).flatMap Piece.tokens := by
    intro q
    rw [q.map_masked_boundsPieces]
    exact q.wellSpaced_boundsPieces.map_masked_tokens
  rw [htext, htext, hbounds, hbounds, h]
  exact ⟨rfl, rfl⟩

end GlyphQuery

/-! ## Bindings -/

/-- The value without its text, if it is compared with the texts of a column. -/
def FilterValue.masked (type : Option FieldType) : FilterValue → FilterValue
  | .string s => .string (if type = some .string then "" else s)
  | v => v

/-- The filter without its text. -/
def Filter.masked (type : Option FieldType) : Filter → Filter
  | .noOp => .noOp
  | .keep operator value => .keep operator (value.masked type)
  | .discard operator value => .discard operator (value.masked type)

/-- What is asked of an axis apart from its names and texts. -/
structure AxisOutline where
  type : Option FieldType
  interpolation : Interpolation
  direction : Direction
  filter : Filter
deriving DecidableEq, Repr

/-- The outline of a binding in a view. -/
def AxisBinding.outline (b : AxisBinding) (view : ViewDefinition) : AxisOutline where
  type := view.columnType? b.column
  interpolation := b.interpolation
  direction := b.direction
  filter := b.filter.masked (view.columnType? b.column)

theorem Filter.comparison?_masked (type : Option FieldType) (f : Filter) :
    (f.masked type).comparison? =
      f.comparison?.map fun (operator, value) => (operator, value.masked type) := by
  cases f <;> rfl

/-- Values with the same mask are read as literals with the same mask. -/
theorem literalFor_of_masked_eq (column column' : String) {type : FieldType}
    {value value' : FilterValue} {literal : SqlLiteral}
    (hmasked : value'.masked (some type) = value.masked (some type))
    (h : literalFor column type value = .ok literal) :
    ∃ literal', literalFor column' type value' = .ok literal' ∧
      literal'.masked = literal.masked := by
  rcases literalFor_eq_ok_iff.1 h with ⟨s, rfl, rfl, rfl⟩ | ⟨x, rfl, rfl, hfinite, rfl⟩ |
    ⟨n, rfl, rfl, rfl⟩ | ⟨s, t, rfl, rfl, hdate, rfl⟩
  · cases value' with
    | string s' => exact ⟨.text s', literalFor_eq_ok_iff.2 (by simp), rfl⟩
    | number _ => cases hmasked
    | integer _ => cases hmasked
  · cases value' with
    | string _ => cases hmasked
    | number x' =>
        obtain rfl := FilterValue.number.inj hmasked
        exact ⟨.number x', literalFor_eq_ok_iff.2 (by simp [hfinite]), rfl⟩
    | integer _ => cases hmasked
  · cases value' with
    | string _ => cases hmasked
    | number _ => cases hmasked
    | integer n' =>
        obtain rfl := FilterValue.integer.inj hmasked
        exact ⟨.integer n', literalFor_eq_ok_iff.2 (by simp), rfl⟩
  · cases value' with
    | string s' =>
        obtain rfl : s' = s := FilterValue.string.inj hmasked
        exact ⟨.timestamp t, literalFor_eq_ok_iff.2 (by simp [hdate]), rfl⟩
    | number _ => cases hmasked
    | integer _ => cases hmasked

theorem predicate?_of_masked_eq (column column' : String) {type : FieldType} {f f' : Filter}
    {predicate : Option Predicate} (hmasked : f'.masked (some type) = f.masked (some type))
    (h : f.predicate? column type = .ok predicate) :
    ∃ predicate', f'.predicate? column' type = .ok predicate' ∧
      predicate'.map (·.masked) = predicate.map (·.masked) := by
  have hcomparison := congrArg Filter.comparison? hmasked
  simp only [Filter.comparison?_masked] at hcomparison
  rcases predicate?_eq_ok_iff.1 h with ⟨hnone, rfl⟩ | ⟨operator, value, literal, hsome, hread, rfl⟩
  · rw [hnone, Option.map_none, Option.map_eq_none_iff] at hcomparison
    exact ⟨none, predicate?_eq_ok_iff.2 (.inl ⟨hcomparison, rfl⟩), rfl⟩
  · rw [hsome, Option.map_some, Option.map_eq_some_iff] at hcomparison
    obtain ⟨⟨operator', value'⟩, hsome', hpair⟩ := hcomparison
    obtain ⟨rfl, hvalue⟩ := Prod.mk.inj hpair
    obtain ⟨literal', hread', hliteral⟩ := literalFor_of_masked_eq column column' hvalue hread
    refine ⟨some ⟨column', operator', literal'⟩,
      predicate?_eq_ok_iff.2 (.inr ⟨operator', value', literal', hsome', hread', rfl⟩), ?_⟩
    simp [Predicate.masked, hliteral]

/-- Bindings with the same outline compile to axes with the same mask. -/
theorem compileAxis_of_outline_eq {axis : Axis} {b b' : AxisBinding} {view view' : ViewDefinition}
    {aggregate : Option Aggregate} {a : CompiledAxis} (houtline : b'.outline view' = b.outline view)
    (h : compileAxis axis b view aggregate = .ok a) :
    ∃ a', compileAxis axis b' view' aggregate = .ok a' ∧ a'.masked = a.masked := by
  obtain ⟨htype, hscale, hdirection, hfilter⟩ := AxisOutline.mk.inj houtline
  obtain ⟨type, predicate, hcolumn, haggregate, hlogarithmic, hpredicate, rfl⟩ :=
    compileAxis_eq_ok_iff.1 h
  have hcolumn' : view'.columnType? b'.column = some type := htype.trans hcolumn
  rw [hcolumn, hcolumn'] at hfilter
  obtain ⟨predicate', hpredicate', hmasked⟩ :=
    predicate?_of_masked_eq b.column b'.column hfilter hpredicate
  have hlogarithmic' : b'.interpolation = .logarithmic → aggregate = some .count ∨ type = .number :=
    fun h => hlogarithmic (hscale ▸ h)
  refine ⟨b'.axisWith axis aggregate predicate', compileAxis_eq_ok_iff.2
    ⟨type, predicate', hcolumn', haggregate, hlogarithmic', hpredicate', rfl⟩, ?_⟩
  have hscale' : b'.interpolation = b.interpolation := hscale
  have hdirection' : b'.direction = b.direction := hdirection
  simp only [CompiledAxis.masked, AxisBinding.axisWith, AxisValue.masked, hscale', hdirection',
    hmasked]

/-- What is asked of the three axes apart from names and texts. -/
def AxisBindings.outline (b : AxisBindings) (defaultAggregate : Aggregate) (view : ViewDefinition) :
    AxisOutline × AxisOutline × AxisOutline × Aggregate :=
  (b.x.outline view, b.y.outline view, b.z.outline view, b.aggregate.getD defaultAggregate)

theorem compileBindings_of_outline_eq {aggregate aggregate' : Aggregate} {b b' : AxisBindings}
    {view view' : ViewDefinition} {q : GlyphQuery}
    (houtline : b'.outline aggregate' view' = b.outline aggregate view)
    (h : compileBindings aggregate b view = .ok q) :
    ∃ q', compileBindings aggregate' b' view' = .ok q' ∧ q'.masked = q.masked := by
  simp only [AxisBindings.outline, Prod.mk.injEq] at houtline
  obtain ⟨hx, hy, hz, haggregate⟩ := houtline
  obtain ⟨hcompiledx, hcompiledy, hcompiledz, -⟩ := compileBindings_eq_ok_iff.1 h
  obtain ⟨x, hx', hmaskedx⟩ := compileAxis_of_outline_eq hx hcompiledx
  obtain ⟨y, hy', hmaskedy⟩ := compileAxis_of_outline_eq hy hcompiledy
  obtain ⟨z, hz', hmaskedz⟩ := compileAxis_of_outline_eq hz hcompiledz
  rw [← haggregate] at hz'
  refine ⟨⟨view'.name, x, y, z⟩, compileBindings_eq_ok_iff.2 ⟨hx', hy', hz', rfl⟩, ?_⟩
  simp only [GlyphQuery.masked, hmaskedx, hmaskedy, hmaskedz]

/-! ## What is between the quotes -/

/-- The tokens between quotes of a filter. -/
def AxisBinding.quotedFilter (b : AxisBinding) (view : ViewDefinition) : List Token :=
  match b.filter.comparison?, view.columnType? b.column with
  | none, _ => []
  | some (_, .string s), some .string => [.name b.column, .text s]
  | some (_, .string s), some .date =>
    .name b.column :: ((readDate? (Text.trim s)).map fun t => .text t.text).toList
  | some _, _ => [.name b.column]

/-- The tokens between quotes of a query without its order: each axis with its label, the number of
rows, the view, the filters, and the columns that make a group. -/
def AxisBindings.quoted (b : AxisBindings) (view : ViewDefinition) : List Token :=
  [.name b.x.column, .name "x", .name b.y.column, .name "y", .name b.z.column, .name "z",
    .name "count", .name view.name] ++
  b.x.quotedFilter view ++ b.y.quotedFilter view ++ b.z.quotedFilter view ++
  [.name b.x.column, .name b.y.column]

theorem quotedTokens_of_compileAxis {axis : Axis} {b : AxisBinding} {view : ViewDefinition}
    {aggregate : Option Aggregate} {a : CompiledAxis}
    (h : compileAxis axis b view aggregate = .ok a) :
    a.value.column = b.column ∧ a.axis = axis ∧
      a.predicate.toList.flatMap (·.quotedTokens) = b.quotedFilter view := by
  obtain ⟨type, predicate, hcolumn, -, -, hpredicate, rfl⟩ := compileAxis_eq_ok_iff.1 h
  refine ⟨rfl, rfl, ?_⟩
  show predicate.toList.flatMap (·.quotedTokens) = b.quotedFilter view
  unfold AxisBinding.quotedFilter
  rcases predicate?_eq_ok_iff.1 hpredicate with ⟨hnone, rfl⟩ |
    ⟨operator, value, literal, hsome, hread, rfl⟩
  · rw [hnone]
    rfl
  · rw [hsome, hcolumn]
    rcases literalFor_eq_ok_iff.1 hread with ⟨s, rfl, rfl, rfl⟩ | ⟨x, rfl, rfl, -, rfl⟩ |
      ⟨n, rfl, rfl, rfl⟩ | ⟨s, t, rfl, rfl, hdate, rfl⟩
    · rfl
    · rfl
    · rfl
    · simp only [hdate]
      rfl

theorem quotedTokens_of_compileBindings {aggregate : Aggregate} {b : AxisBindings}
    {view : ViewDefinition} {q : GlyphQuery} (h : compileBindings aggregate b view = .ok q) :
    q.quotedTokens = b.quoted view ∧ q.axes.map (·.axis) = [.x, .y, .z] := by
  obtain ⟨hx, hy, hz, hview⟩ := compileBindings_eq_ok_iff.1 h
  obtain ⟨hcolumnx, haxisx, hfilterx⟩ := quotedTokens_of_compileAxis hx
  obtain ⟨hcolumny, haxisy, hfiltery⟩ := quotedTokens_of_compileAxis hy
  obtain ⟨hcolumnz, haxisz, hfilterz⟩ := quotedTokens_of_compileAxis hz
  have hpredicates : q.predicates.flatMap (·.quotedTokens) =
      b.x.quotedFilter view ++ b.y.quotedFilter view ++ b.z.quotedFilter view := by
    rw [← hfilterx, ← hfiltery, ← hfilterz, GlyphQuery.predicates, List.filterMap_eq_flatMap_toList,
      List.flatMap_assoc]
    simp [GlyphQuery.axes]
  constructor
  · rw [GlyphQuery.quotedTokens, hpredicates, hcolumnx, hcolumny, hview]
    simp [GlyphQuery.axes, hcolumnx, hcolumny, hcolumnz, haxisx, haxisy, haxisz, Axis.label,
      AxisBindings.quoted]
  · simp [GlyphQuery.axes, haxisx, haxisy, haxisz]

/-- Whatever the view, its columns and the texts of filters are called, between the quotes of a
compiled query stand exactly these names and texts, and outside of them the query has the same words
and symbols in the same places as that of any bindings with the same outline. -/
theorem compileBindings_confined {aggregate : Aggregate} {b : AxisBindings} {view : ViewDefinition}
    {q : GlyphQuery} (h : compileBindings aggregate b view = .ok q) :
    (Sql.tokens q.text).filter Token.isQuoted =
        b.quoted view ++ [.name "x", .name "y", .name "z"] ∧
      (Sql.tokens q.boundsText).filter Token.isQuoted =
        [.name "x", .name "min_x", .name "x", .name "max_x", .name "y", .name "min_y", .name "y",
          .name "max_y", .name "z", .name "min_z", .name "z", .name "max_z"] ++
        b.quoted view ++ [.name "glyphs"] ∧
      ∀ (aggregate' : Aggregate) (b' : AxisBindings) (view' : ViewDefinition),
        b'.outline aggregate' view' = b.outline aggregate view →
        ∃ q', compileBindings aggregate' b' view' = .ok q' ∧
          (Sql.tokens q'.text).map Token.masked = (Sql.tokens q.text).map Token.masked ∧
          (Sql.tokens q'.boundsText).map Token.masked =
            (Sql.tokens q.boundsText).map Token.masked := by
  obtain ⟨hquoted, haxes⟩ := quotedTokens_of_compileBindings h
  refine ⟨?_, ?_, ?_⟩
  · have hlabels : (q.axes.map fun a => Token.name a.axis.label) =
        (q.axes.map (·.axis)).map fun axis => Token.name axis.label := by
      rw [List.map_map]
      rfl
    rw [GlyphQuery.text, q.wellSpaced_pieces.filter_isQuoted_tokens, q.filterMap_quoted?_pieces,
      hquoted, hlabels, haxes]
    rfl
  · rw [GlyphQuery.boundsText, q.wellSpaced_boundsPieces.filter_isQuoted_tokens,
      q.filterMap_quoted?_boundsPieces, hquoted]
    rfl
  · intro aggregate' b' view' houtline
    obtain ⟨q', hcompiled, hmasked⟩ := compileBindings_of_outline_eq houtline h
    exact ⟨q', hcompiled, GlyphQuery.map_masked_tokens_of_masked_eq hmasked⟩

/-- A view with quotes in its names. -/
def quotesView : ViewDefinition where
  name := "v\"; DROP VIEW \"w"
  statement := ""
  columns := [⟨"a\" GROUP BY", .string⟩, ⟨"b", .date⟩, ⟨"n", .number⟩]

/-- Bindings with quotes in a name and in a text. -/
def quotesBindings : AxisBindings where
  x := ⟨"a\" GROUP BY", .linear, .ascending, .discard .equal (.string "O'Hara' OR 1=1 --")⟩
  y := ⟨"b", .linear, .descending, .noOp⟩
  z := ⟨"n", .logarithmic, .ascending, .keep .lessThan (.integer 7)⟩

/-- Names and texts that try to end the quotes around them do not, and what they compile to differs
from a plain query only between the quotes. -/
theorem compileBindings_confined_of_quotes :
    ∃ q, compileBindings .sum quotesBindings quotesView = .ok q ∧
      (Sql.tokens q.text).filter Token.isQuoted =
        [.name "a\" GROUP BY", .name "x", .name "b", .name "y", .name "n", .name "z",
          .name "count", .name "v\"; DROP VIEW \"w", .name "a\" GROUP BY",
          .text "O'Hara' OR 1=1 --", .name "n", .name "a\" GROUP BY", .name "b",
          .name "x", .name "y", .name "z"] ∧
      ∃ q', compileBindings .sum
          { quotesBindings with
            x := ⟨"k", .linear, .ascending, .discard .equal (.string "Ohio")⟩ }
          { quotesView with
            name := "v", columns := [⟨"n", .number⟩, ⟨"k", .string⟩, ⟨"b", .date⟩] } = .ok q' ∧
        (Sql.tokens q'.text).map Token.masked = (Sql.tokens q.text).map Token.masked ∧
        (Sql.tokens q'.boundsText).map Token.masked =
          (Sql.tokens q.boundsText).map Token.masked := by
  have hcompiled : ∃ q, compileBindings .sum quotesBindings quotesView = .ok q := ⟨_, rfl⟩
  obtain ⟨q, hq⟩ := hcompiled
  obtain ⟨htext, -, hother⟩ := compileBindings_confined hq
  exact ⟨q, hq, htext, hother .sum _ _ rfl⟩

end TabularView
