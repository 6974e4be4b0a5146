import TabularView.Proofs.Field.Timestamp
import TabularView.Proofs.Query.Tokens

set_option autoImplicit false

/-! # The condition of a query

What an engine finds between the words `WHERE` and `GROUP` of a query, read from its tokens: the
predicates with `AND` between them, each of a name, a comparison and a literal. None of the three
words is part of a predicate unless it stands between quotes, and each literal is read back as the
one that was written. So a query and its bounds have the condition that the axes ask for
(`GlyphQuery.conditions?_text`), and no `WHERE` if they ask for nothing. -/

namespace TabularView

open Sql (Piece Token)

/-! ## Reading -/

/-- A literal: a text, a timestamp, a whole number or any other number. -/
def SqlLiteral.ofTokens? : List Token → Option SqlLiteral
  | [.text s] => some (.text s)
  | [.word keyword, .text s] =>
    if keyword = "TIMESTAMP" then (Instant.ofText? s.toList).map .timestamp else none
  | [.word s] =>
    match Text.readInt? s.toList with
    | some n => some (.integer n)
    | none => (Binary64.ofText? s.toList).map .number
  | _ => none

/-- The comparison that an engine takes a symbol for. -/
def Operator.ofSymbol? : String → Option Operator
  | "=" => some .equal
  | "<>" => some .notEqual
  | ">" => some .greaterThan
  | ">=" => some .greaterThanEqual
  | "<" => some .lessThan
  | "<=" => some .lessThanEqual
  | _ => none

/-- A comparison of a column with a literal. -/
def Predicate.ofTokens? : List Token → Option Predicate
  | .name column :: .word symbol :: rest => do
    let operator ← Operator.ofSymbol? symbol
    let literal ← SqlLiteral.ofTokens? rest
    some { column, operator, literal }
  | _ => none

/-- What stands between the words `WHERE` and `GROUP`, if there is a `WHERE`. -/
def whereClause? (ts : List Token) : Option (List Token) :=
  match ts.dropWhile (· != .word "WHERE") with
  | [] => none
  | _ :: rest => some (rest.takeWhile (· != .word "GROUP"))

/-- The comparisons of a query, all of which have to hold. -/
def conditions? (ts : List Token) : Option (List Predicate) :=
  match whereClause? ts with
  | none => some []
  | some clause => (clause.splitOn (.word "AND")).mapM Predicate.ofTokens?

/-! ## Literals -/

namespace Text

theorem readDigits?_eq_none {s : List Char} {c : Char} (hc : c ∈ s) (h : asciiDigit? c = none)
    (acc : Nat) : readDigits? acc s = none := by
  induction s generalizing acc with
  | nil => cases hc
  | cons d rest ih =>
      unfold readDigits?
      rcases List.mem_cons.1 hc with rfl | hc
      · rw [h]
      · split
        · exact ih hc _
        · rfl

/-- A text with anything but digits behind its sign is no whole number. -/
theorem readInt?_eq_none {s : List Char} {c : Char} (hc : c ∈ s) (h : asciiDigit? c = none)
    (hplus : c ≠ '+') (hminus : c ≠ '-') : readInt? s = none := by
  have hnat : ∀ t : List Char, c ∈ t → readNat? t = none := by
    intro t ht
    obtain ⟨d, rest, rfl⟩ := List.exists_cons_of_ne_nil (List.ne_nil_of_mem ht)
    exact readDigits?_eq_none ht h 0
  unfold readInt?
  split
  · rw [hnat _ ((List.mem_cons.1 hc).resolve_left hplus)]
    rfl
  · rw [hnat _ ((List.mem_cons.1 hc).resolve_left hminus)]
    rfl
  · rw [hnat _ hc]
    rfl

end Text

namespace Binary64

/-- A number is written with a point or a power of ten. -/
theorem mem_magnitudeText (style : Layout) (m : Nat) (e : Int) :
    '.' ∈ magnitudeText style m e ∨ 'e' ∈ magnitudeText style m e := by
  unfold magnitudeText
  dsimp only
  split
  · left
    unfold positional
    split
    · simp
    · split <;> simp
  · right
    simp [scientific]

theorem readInt?_text {x : Binary64} (h : x.isFinite = true) :
    Text.readInt? x.text.toList = none := by
  cases x with
  | nan => cases h
  | infinite _ => cases h
  | finite negative m e hcanonical =>
      have hmagnitude : '.' ∈ (if m = 0 then "0.0".toList else magnitudeText .plain m e) ∨
          'e' ∈ (if m = 0 then "0.0".toList else magnitudeText .plain m e) := by
        split
        · left
          decide
        · exact mem_magnitudeText .plain m e
      have htext : ∀ c ∈ (if m = 0 then "0.0".toList else magnitudeText .plain m e),
          c ∈ (text (.finite negative m e hcanonical)).toList := by
        intro c hc
        rw [text, String.toList_ofList]
        split
        · exact List.mem_cons_of_mem _ hc
        · exact hc
      rcases hmagnitude with hpoint | hletter
      · exact Text.readInt?_eq_none (htext _ hpoint) (by decide) (by decide) (by decide)
      · exact Text.readInt?_eq_none (htext _ hletter) (by decide) (by decide) (by decide)

end Binary64

namespace SqlLiteral

/-- The tokens of a literal. -/
def tokens : SqlLiteral → List Token
  | .text s => [.text s]
  | .number x => [.word x.text]
  | .integer n => [.word (toString n)]
  | .timestamp t => [.word "TIMESTAMP", .text t.text]

/-- A literal that can be read back: a number is finite, and an instant has a fraction of a
second. -/
def IsReadable : SqlLiteral → Prop
  | .number x => x.isFinite = true
  | .timestamp t => t.nanos < 10 ^ 9
  | _ => True

variable {l : SqlLiteral}

theorem ofText?_text {x : Binary64} (h : x.isFinite = true) :
    Binary64.ofText? x.text.toList = some x := by
  cases x with
  | nan => cases h
  | infinite _ => cases h
  | finite negative m e hcanonical => exact Binary64.ofText?_text hcanonical

theorem ofTokens?_tokens (h : l.IsReadable) : ofTokens? l.tokens = some l := by
  cases l with
  | text s => rfl
  | number x =>
      simp only [tokens, ofTokens?, Binary64.readInt?_text h, ofText?_text h, Option.map_some]
  | integer n => simp only [tokens, ofTokens?, Text.readInt?_toString]
  | timestamp t => simp only [tokens, ofTokens?, if_true, Instant.ofText?_text h, Option.map_some]

theorem flatMap_tokens_pieces (h : l.IsReadable) : l.pieces.flatMap Piece.tokens = l.tokens := by
  cases l with
  | text s => rfl
  | number x =>
      have hne : x.text.toList ≠ [] := by
        intro hnil
        have hread := ofText?_text h
        rw [hnil] at hread
        cases hread
      have hword : Sql.IsWord x.text :=
        ⟨hne, fun c hc => isWordChar_of_isNumberChar (x.isNumberChar_of_mem_text c hc)⟩
      exact (List.append_nil _).trans hword.tokens
  | integer n => exact (List.append_nil _).trans (isWord_toString n).tokens
  | timestamp t => rfl

/-- A word that is no number is not in a literal. -/
theorem word_not_mem_tokens {word : String} (hne : word ≠ "TIMESTAMP")
    (hnone : ofTokens? [.word word] = none) (h : l.IsReadable) : .word word ∉ l.tokens := by
  have hread := ofTokens?_tokens h
  intro hmem
  cases l with
  | text s => simp [tokens] at hmem
  | number x =>
      obtain rfl : word = x.text := by simpa [tokens] using hmem
      rw [tokens, hnone] at hread
      cases hread
  | integer n =>
      obtain rfl : word = toString n := by simpa [tokens] using hmem
      rw [tokens, hnone] at hread
      cases hread
  | timestamp t => simp [tokens, hne] at hmem

end SqlLiteral

/-! ## Comparisons -/

namespace Operator

theorem ofSymbol?_symbol (op : Operator) : ofSymbol? op.symbol = some op := by
  cases op <;> rfl

theorem tokens_symbol (op : Operator) :
    Sql.tokens (" " ++ op.symbol ++ " ") = [.word op.symbol] := by
  cases op <;> decide

end Operator

namespace Predicate

variable {p : Predicate}

/-- The tokens of a comparison. -/
def tokens (p : Predicate) : List Token :=
  .name p.column :: .word p.operator.symbol :: p.literal.tokens

theorem flatMap_tokens_pieces (h : p.literal.IsReadable) :
    p.pieces.flatMap Piece.tokens = p.tokens := by
  rw [pieces, List.flatMap_cons, List.flatMap_cons, SqlLiteral.flatMap_tokens_pieces h,
    Piece.tokens, Piece.tokens, p.operator.tokens_symbol]
  rfl

theorem ofTokens?_tokens (h : p.literal.IsReadable) : ofTokens? p.tokens = some p := by
  simp only [tokens, ofTokens?, Operator.ofSymbol?_symbol, SqlLiteral.ofTokens?_tokens h,
    Option.bind_eq_bind, Option.bind_some]

/-- A word that is no comparison and no number is not in a predicate. -/
theorem word_not_mem_tokens {word : String} (hne : word ≠ "TIMESTAMP")
    (hsymbol : Operator.ofSymbol? word = none) (hnone : SqlLiteral.ofTokens? [.word word] = none)
    (h : p.literal.IsReadable) : .word word ∉ p.tokens := by
  have hoperator : Token.word word ≠ .word p.operator.symbol := by
    rintro heq
    rw [Token.word.inj heq, p.operator.ofSymbol?_symbol] at hsymbol
    cases hsymbol
  refine List.not_mem_cons_of_ne_of_not_mem (by simp) ?_
  exact List.not_mem_cons_of_ne_of_not_mem hoperator (SqlLiteral.word_not_mem_tokens hne hnone h)

end Predicate

/-! ## The clause -/

variable {ts : List Token}

theorem whereClause?_eq_none_iff : whereClause? ts = none ↔ .word "WHERE" ∉ ts := by
  have hdropped : ts.dropWhile (· != .word "WHERE") = [] ↔ .word "WHERE" ∉ ts := by
    simp only [List.dropWhile_eq_nil_iff, bne_iff_ne, ne_eq]
    exact ⟨fun h hmem => h _ hmem rfl, fun h t ht heq => h (heq ▸ ht)⟩
  rw [← hdropped]
  unfold whereClause?
  split
  · next h => simp [h]
  · next h => simp [h]

theorem whereClause?_append {before clause after : List Token} (hbefore : .word "WHERE" ∉ before)
    (hclause : .word "GROUP" ∉ clause) :
    whereClause? (before ++ .word "WHERE" :: (clause ++ .word "GROUP" :: after)) = some clause := by
  have hskip : ∀ t ∈ before, (t != .word "WHERE") = true := by
    intro t ht
    exact bne_iff_ne.2 fun heq => hbefore (heq ▸ ht)
  have hkeep : ∀ t ∈ clause, (t != .word "GROUP") = true := by
    intro t ht
    exact bne_iff_ne.2 fun heq => hclause (heq ▸ ht)
  have hdropped : (before ++ .word "WHERE" :: (clause ++ .word "GROUP" :: after)).dropWhile
      (· != .word "WHERE") = .word "WHERE" :: (clause ++ .word "GROUP" :: after) := by
    rw [List.dropWhile_append_of_pos hskip]
    rfl
  have htaken : (clause ++ .word "GROUP" :: after).takeWhile (· != .word "GROUP") = clause := by
    rw [List.takeWhile_append_of_pos hkeep]
    exact List.append_nil clause
  unfold whereClause?
  rw [hdropped]
  exact congrArg some htaken

/-- Predicates with `AND` between them are read back. -/
theorem mapM_ofTokens?_splitOn {predicates : List Predicate} (hne : predicates ≠ [])
    (h : ∀ p ∈ predicates, p.literal.IsReadable) :
    ((List.intercalate [Token.word "AND"] (predicates.map Predicate.tokens)).splitOn
      (.word "AND")).mapM Predicate.ofTokens? = some predicates := by
  have hand : ∀ ts ∈ predicates.map Predicate.tokens, .word "AND" ∉ ts := by
    refine List.forall_mem_map.2 fun p hp => ?_
    exact Predicate.word_not_mem_tokens (by decide) (by decide) (by decide) (h p hp)
  have hread : ∀ predicates : List Predicate, (∀ p ∈ predicates, p.literal.IsReadable) →
      (predicates.map Predicate.tokens).mapM Predicate.ofTokens? = some predicates := by
    intro predicates h
    induction predicates with
    | nil => rfl
    | cons p rest ih =>
        obtain ⟨hp, hrest⟩ := List.forall_mem_cons.1 h
        rw [List.map_cons, List.mapM_cons, Predicate.ofTokens?_tokens hp, ih hrest]
        rfl
  -- no predicate has the word in it, so cutting at the word undoes the joining
  rw [List.splitOn_intercalate _ hand (by simpa using hne)]
  exact hread predicates h

/-! ## The condition of a query -/

theorem Sql.word_not_mem_flatMap_tokens {word : String} {pieces : List Piece}
    (h : ∀ s, .plain s ∈ pieces → .word word ∉ Sql.tokens s) :
    .word word ∉ pieces.flatMap Piece.tokens := by
  intro hmem
  obtain ⟨piece, hpiece, ht⟩ := List.mem_flatMap.1 hmem
  cases piece with
  | plain s => exact h s hpiece ht
  | name s => simp [Piece.tokens] at ht
  | text s => simp [Piece.tokens] at ht

theorem AxisValue.where_not_mem_tokens (v : AxisValue) :
    .word "WHERE" ∉ v.pieces.flatMap Piece.tokens := by
  have hfunction : ∀ a : Aggregate, .word "WHERE" ∉ Sql.tokens (a.function ++ "(") := by
    intro a
    cases a <;> decide
  have hopen : Token.word "WHERE" ∉ Sql.tokens "LOG10(" := by decide
  have hclose : Token.word "WHERE" ∉ Sql.tokens ")" := by decide
  refine Sql.word_not_mem_flatMap_tokens fun s hs => ?_
  obtain ⟨column, aggregate, logarithmic⟩ := v
  cases aggregate <;> cases logarithmic <;>
    simp only [pieces, if_true, Bool.false_eq_true, if_false, List.cons_append, List.nil_append,
      List.mem_cons, Piece.plain.injEq, List.not_mem_nil, or_false, reduceCtorEq, false_or] at hs
  · rcases hs with rfl | rfl <;> assumption
  · rcases hs with rfl | rfl
    · exact hfunction _
    · exact hclose
  · rcases hs with rfl | rfl | rfl | rfl
    · exact hopen
    · exact hfunction _
    · exact hclose
    · exact hclose

namespace GlyphQuery

variable {q : GlyphQuery}

/-- All literals of the query can be read back. -/
def IsReadable (q : GlyphQuery) : Prop :=
  ∀ p ∈ q.predicates, p.literal.IsReadable

theorem where_not_mem_selectPieces (q : GlyphQuery) :
    .word "WHERE" ∉ q.selectPieces.flatMap Piece.tokens := by
  have hshown : ∀ group ∈ q.axes.map fun a => a.value.pieces ++
      [.plain " AS ", .name a.axis.label], Token.word "WHERE" ∉ group.flatMap Piece.tokens := by
    refine List.forall_mem_map.2 fun a _ => ?_
    rw [List.flatMap_append, List.mem_append]
    refine not_or.2 ⟨a.value.where_not_mem_tokens, ?_⟩
    cases a.axis <;> decide
  have hcount : Token.word "WHERE" ∉ ([.plain ",\n  COUNT(*) AS ", .name "count", .plain "\nFROM ",
      .name q.view] : List Piece).flatMap Piece.tokens := by
    refine Sql.word_not_mem_flatMap_tokens fun s hs => ?_
    simp only [List.mem_cons, Piece.plain.injEq, List.not_mem_nil, or_false, reduceCtorEq,
      false_or] at hs
    rcases hs with rfl | rfl <;> decide
  rw [selectPieces, List.cons_append, List.flatMap_cons, List.flatMap_append, List.mem_append,
    List.mem_append]
  refine not_or.2 ⟨by decide, not_or.2 ⟨?_, hcount⟩⟩
  exact Sql.not_mem_flatMap_tokens_separated (by decide) hshown

theorem wherePieces_of_ne_nil (h : q.predicates ≠ []) :
    q.wherePieces = .plain "\nWHERE " :: Sql.separated " AND " (q.predicates.map (·.pieces)) := by
  unfold wherePieces
  split
  · next hnil => exact absurd hnil h
  · rfl

/-- The condition is the predicates with `AND` between them. -/
theorem flatMap_tokens_condition (h : q.IsReadable) :
    (Sql.separated " AND " (q.predicates.map (·.pieces))).flatMap Piece.tokens =
      List.intercalate [.word "AND"] (q.predicates.map Predicate.tokens) := by
  have hand : Sql.tokens " AND " = [.word "AND"] := by decide
  have hpredicates : (q.predicates.map (·.pieces)).map (·.flatMap Piece.tokens) =
      q.predicates.map Predicate.tokens := by
    rw [List.map_map]
    exact List.map_congr_left fun p hp => Predicate.flatMap_tokens_pieces (h p hp)
  rw [Sql.flatMap_tokens_separated, hand, hpredicates]

theorem group_not_mem_condition (h : q.IsReadable) :
    .word "GROUP" ∉ (Sql.separated " AND " (q.predicates.map (·.pieces))).flatMap Piece.tokens := by
  refine Sql.not_mem_flatMap_tokens_separated (by decide) (List.forall_mem_map.2 fun p hp => ?_)
  rw [Predicate.flatMap_tokens_pieces (h p hp)]
  exact Predicate.word_not_mem_tokens (by decide) (by decide) (by decide) (h p hp)

/-- The tokens behind the word `GROUP`. -/
def groupTokens (q : GlyphQuery) : List Token :=
  [.word "BY", .name q.x.value.column, .symbol ',', .name q.y.value.column]

theorem flatMap_tokens_groupPieces (q : GlyphQuery) :
    q.groupPieces.flatMap Piece.tokens = .word "GROUP" :: q.groupTokens := by
  have hby : Sql.tokens "\nGROUP BY " = [.word "GROUP", .word "BY"] := by decide
  have hcomma : Sql.tokens ", " = [.symbol ','] := by decide
  simp only [groupPieces, List.flatMap_cons, List.flatMap_nil, Piece.tokens, hby, hcomma,
    List.cons_append, List.nil_append, groupTokens]

/-- The tokens of the condition, if there is one. -/
def condition? (q : GlyphQuery) : Option (List Token) :=
  if q.predicates = [] then none
  else some (List.intercalate [.word "AND"] (q.predicates.map Predicate.tokens))

/-- What stands around a query without its order does not matter as long as there is no `WHERE` in
it: the condition is the one of the query. -/
theorem whereClause?_around (h : q.IsReadable) {before after : List Token}
    (hbefore : .word "WHERE" ∉ before) (hafter : .word "WHERE" ∉ after) :
    whereClause? (before ++ q.groupedPieces.flatMap Piece.tokens ++ after) = q.condition? := by
  have hfront : .word "WHERE" ∉ before ++ q.selectPieces.flatMap Piece.tokens :=
    List.not_mem_append hbefore q.where_not_mem_selectPieces
  rw [groupedPieces, List.flatMap_append, List.flatMap_append, q.flatMap_tokens_groupPieces,
    condition?]
  split
  · next hnil =>
      have hgroup : .word "WHERE" ∉ Token.word "GROUP" :: q.groupTokens := by simp [groupTokens]
      have hwhere : q.wherePieces = [] := by rw [wherePieces, hnil]
      rw [hwhere, List.flatMap_nil, List.append_nil, ← List.append_assoc]
      refine whereClause?_eq_none_iff.2 ?_
      exact List.not_mem_append (List.not_mem_append hfront hgroup) hafter
  · next hne =>
      have hwhere : Piece.tokens (.plain "\nWHERE ") = [.word "WHERE"] := by decide
      have hread := @whereClause?_append _ _ (q.groupTokens ++ after) hfront
        (group_not_mem_condition h)
      rw [wherePieces_of_ne_nil hne, List.flatMap_cons, hwhere]
      rw [flatMap_tokens_condition h] at hread ⊢
      simpa only [List.append_assoc, List.cons_append, List.nil_append] using hread

theorem whereClause?_text (h : q.IsReadable) :
    whereClause? (Sql.tokens q.text) = q.condition? := by
  have hordered : ∀ group ∈ q.axes.map fun a => ([.name a.axis.label,
      .plain (" " ++ a.direction.keyword)] : List Piece),
      Token.word "WHERE" ∉ group.flatMap Piece.tokens := by
    refine List.forall_mem_map.2 fun a _ => ?_
    cases a.axis <;> cases a.direction <;> decide
  have hafter : Token.word "WHERE" ∉ (Piece.plain "\nORDER BY " ::
      Sql.separated ", " (q.axes.map fun a =>
        [.name a.axis.label, .plain (" " ++ a.direction.keyword)])).flatMap Piece.tokens := by
    rw [List.flatMap_cons]
    exact List.not_mem_append (by decide)
      (Sql.not_mem_flatMap_tokens_separated (by decide) hordered)
  rw [text, q.wellSpaced_pieces.tokens_render, pieces, List.flatMap_append]
  exact whereClause?_around h List.not_mem_nil hafter

theorem whereClause?_boundsText (h : q.IsReadable) :
    whereClause? (Sql.tokens q.boundsText) = q.condition? := by
  have hbefore : Token.word "WHERE" ∉ (Piece.plain "SELECT\n  " ::
      Sql.separated ",\n  " ([Axis.x, .y, .z].map boundPieces) ++
        [Piece.plain "\nFROM (\n"]).flatMap Piece.tokens := by
    decide
  have hafter : Token.word "WHERE" ∉
      ([.plain "\n) AS ", .name "glyphs"] : List Piece).flatMap Piece.tokens := by
    decide
  have hread := whereClause?_around h hbefore hafter
  rw [← List.flatMap_append, ← List.flatMap_append] at hread
  rw [boundsText, q.wellSpaced_boundsPieces.tokens_render, boundsPieces]
  simpa only [List.append_assoc, List.cons_append, List.nil_append] using hread

theorem conditions?_eq {ts : List Token} (h : q.IsReadable)
    (hclause : whereClause? ts = q.condition?) :
    conditions? ts = some q.predicates := by
  unfold conditions?
  rw [hclause, condition?]
  split
  · next hnone =>
      split at hnone
      · next hnil => rw [hnil]
      · cases hnone
  · next clause hsome =>
      split at hsome
      · cases hsome
      · next hne =>
          obtain rfl := Option.some.inj hsome
          exact mapM_ofTokens?_splitOn hne h

/-- The condition of a query and that of its bounds are the predicates of the axes. -/
theorem conditions?_text (h : q.IsReadable) :
    conditions? (Sql.tokens q.text) = some q.predicates ∧
      conditions? (Sql.tokens q.boundsText) = some q.predicates :=
  ⟨conditions?_eq h (whereClause?_text h), conditions?_eq h (whereClause?_boundsText h)⟩

end GlyphQuery

end TabularView
