import Mathlib.Data.List.Basic
import TabularView.Sql.Piece
import TabularView.Text.Blank

set_option autoImplicit false

/-! # Tokens of SQL text

An engine cuts a text into tokens before it does anything else: names between double quotes, texts
between single quotes, symbols, and words for all that stands between blanks, symbols and quotes.
Between quotes only the quote itself matters, and a quote written twice stands for one.

Pieces are read as they were meant if they are well spaced: no plain piece has a quote in it, and
what follows a name, a text or a word starts with a blank or a symbol (`WellSpaced`). Then the
tokens of the whole are those of the pieces, whatever the names and texts hold
(`WellSpaced.tokens_render`). -/

namespace TabularView.Sql

/-! ## Tokens -/

/-- A token. What follows a quote that is never closed is one token, too. -/
inductive Token
  | word (s : String)
  | symbol (c : Char)
  | name (s : String)
  | text (s : String)
  | unclosed (s : String)
deriving DecidableEq, Repr

namespace Token

/-- What is not a word or a symbol stands between quotes. -/
def isQuoted : Token → Bool
  | .word _ => false
  | .symbol _ => false
  | _ => true

/-- The token without what stands between its quotes. -/
def masked : Token → Token
  | .name _ => .name ""
  | .text _ => .text ""
  | t => t

end Token

/-- A quote around a name or a text. -/
def isQuote (c : Char) : Bool :=
  c == '"' || c == '\x27'

/-- A character that is a token by itself. -/
def isSymbol (c : Char) : Bool :=
  c == '(' || c == ')' || c == ','

/-- A character between words, be it a token or not. -/
def isSeparator (c : Char) : Bool :=
  Text.isBlank c || isSymbol c

theorem isQuote_eq_false_of_isSeparator {c : Char} (h : isSeparator c = true) :
    isQuote c = false := by
  by_cases hname : c = '"'
  · subst hname
    exact absurd h (by decide)
  · by_cases htext : c = '\x27'
    · subst htext
      exact absurd h (by decide)
    · simp [isQuote, hname, htext]

/-! ## Reading -/

/-- Where reading stands: behind the first letters of a word, between quotes, or behind a quote that
has closed them if it is not doubled. -/
inductive Reading
  | bare (word : List Char)
  | quoted (q : Char) (content : List Char)
  | closing (q : Char) (content : List Char)

/-- The word read so far, if there is any of it. -/
def wordToken : List Char → List Token
  | [] => []
  | word => [.word (String.ofList word)]

/-- What has been read between quotes. -/
def quotedToken (q : Char) (content : List Char) : Token :=
  if q = '"' then .name (String.ofList content) else .text (String.ofList content)

/-- The token that a character between words is, if it is one. -/
def separatorToken (c : Char) : List Token :=
  if isSymbol c then [.symbol c] else []

/-- One character outside quotes: where reading stands then, and the tokens that have ended. -/
def readBare (word : List Char) (c : Char) : Reading × List Token :=
  if isQuote c then (.quoted c [], wordToken word)
  else if isSeparator c then (.bare [], wordToken word ++ separatorToken c)
  else (.bare (word ++ [c]), [])

/-- One character: where reading stands then, and the tokens that have ended. -/
def Reading.next : Reading → Char → Reading × List Token
  | .bare word, c => readBare word c
  | .quoted q content, c =>
    if c = q then (.closing q content, []) else (.quoted q (content ++ [c]), [])
  | .closing q content, c =>
    if c = q then (.quoted q (content ++ [c]), [])
    else
      let (r, tokens) := readBare [] c
      (r, quotedToken q content :: tokens)

/-- The tokens that end with the text. -/
def Reading.finish : Reading → List Token
  | .bare word => wordToken word
  | .quoted _ content => [.unclosed (String.ofList content)]
  | .closing q content => [quotedToken q content]

/-- The tokens of what follows. -/
def Reading.tokens (r : Reading) : List Char → List Token
  | [] => r.finish
  | c :: rest => (r.next c).2 ++ (r.next c).1.tokens rest

/-- The tokens of a text. -/
def tokens (s : String) : List Token :=
  (Reading.bare []).tokens s.toList

/-! ## Quotes -/

/-- What stands between quotes is read back, and reading goes on behind them. -/
theorem tokens_doubled (q : Char) (content s : List Char) {rest : List Char}
    (h : rest.head? ≠ some q) :
    (Reading.quoted q content).tokens (doubled q s ++ q :: rest) =
      quotedToken q (content ++ s) :: (Reading.bare []).tokens rest := by
  induction s generalizing content with
  | nil =>
      cases rest with
      | nil => simp [doubled, Reading.tokens, Reading.next, Reading.finish, wordToken]
      | cons c rest =>
          have hc : c ≠ q := fun heq => h (congrArg some heq)
          simp [doubled, Reading.tokens, Reading.next, hc]
  | cons c s ih =>
      by_cases hc : c = q
      · subst hc
        simpa [doubled, Reading.tokens, Reading.next] using ih (content ++ [c])
      · simpa [doubled, Reading.tokens, Reading.next, hc] using ih (content ++ [c])

theorem tokens_quoteChars {q : Char} (hq : isQuote q = true) (word s : List Char)
    {rest : List Char} (h : rest.head? ≠ some q) :
    (Reading.bare word).tokens (quoteChars q s ++ rest) =
      wordToken word ++ quotedToken q s :: (Reading.bare []).tokens rest := by
  have hread := tokens_doubled q [] s h
  simpa [quoteChars, Reading.tokens, Reading.next, readBare, hq] using hread

theorem quotedToken_injective (q : Char) : Function.Injective (quotedToken q) := by
  intro s t h
  unfold quotedToken at h
  split at h
  · exact String.ofList_injective (Token.name.inj h)
  · exact String.ofList_injective (Token.text.inj h)

/-- No more is read between quotes than stands there; each doubled quote costs one character. -/
theorem length_le_of_tokens (q : Char) {t : List Char} {ts : List Token} (s content : List Char) :
    ((Reading.quoted q content).tokens s = quotedToken q t :: ts →
      t.length + 1 ≤ content.length + s.length) ∧
    ((Reading.closing q content).tokens s = quotedToken q t :: ts →
      t.length ≤ content.length + (s.length - 1)) := by
  induction s generalizing content with
  | nil =>
      constructor
      · intro h
        simp only [Reading.tokens, Reading.finish, quotedToken] at h
        split at h <;> cases h
      · intro h
        obtain rfl := quotedToken_injective q (List.cons.inj h).1
        exact Nat.le_add_right _ _
  | cons c s ih =>
      obtain ⟨hquoted, hclosing⟩ := ih content
      have hlonger := (ih (content ++ [c])).1
      simp only [List.length_append, List.length_cons, List.length_nil] at hlonger ⊢
      constructor
      · intro h
        by_cases hc : c = q
        · have hread := hclosing (by simpa [Reading.tokens, Reading.next, hc] using h)
          omega
        · have hread := hlonger (by simpa [Reading.tokens, Reading.next, hc] using h)
          omega
      · intro h
        by_cases hc : c = q
        · have hread := hlonger (by simpa [Reading.tokens, Reading.next, hc] using h)
          omega
        · have hfirst : quotedToken q content = quotedToken q t := by
            simp only [Reading.tokens, Reading.next, hc, if_false, List.cons_append] at h
            exact (List.cons.inj h).1
          obtain rfl := quotedToken_injective q hfirst
          omega

/-- A text between quotes is read as it stands there only if it has none of them. -/
theorem not_mem_of_tokens_quoted {q : Char} {content s : List Char} {ts : List Token}
    (h : (Reading.quoted q content).tokens (s ++ [q]) = quotedToken q (content ++ s) :: ts) :
    q ∉ s := by
  induction s generalizing content with
  | nil => exact List.not_mem_nil
  | cons c s ih =>
      by_cases hc : c = q
      · have hlength := (length_le_of_tokens q (s ++ [q]) content).2
          (by simpa [Reading.tokens, Reading.next, hc] using h)
        simp only [List.length_append, List.length_cons, List.length_nil] at hlength
        omega
      · have hrest : (Reading.quoted q (content ++ [c])).tokens (s ++ [q]) =
            quotedToken q (content ++ [c] ++ s) :: ts := by
          simpa [Reading.tokens, Reading.next, hc] using h
        have hs := ih hrest
        exact List.not_mem_cons_of_ne_of_not_mem (Ne.symm hc) hs

theorem doubled_of_not_mem {q : Char} {s : List Char} (h : q ∉ s) : doubled q s = s := by
  induction s with
  | nil => rfl
  | cons c s ih =>
      obtain ⟨hc, hs⟩ := List.ne_and_not_mem_of_not_mem_cons h
      rw [doubled, if_neg (Ne.symm hc), ih hs]

/-- Between quotes without doubling, exactly the texts that have none of them are read back. -/
theorem tokens_raw_iff {q : Char} (hq : isQuote q = true) (s : List Char) :
    (Reading.bare []).tokens (q :: (s ++ [q])) = [quotedToken q s] ↔ q ∉ s := by
  have hopen : (Reading.bare []).tokens (q :: (s ++ [q])) =
      (Reading.quoted q []).tokens (s ++ [q]) := by
    simp [Reading.tokens, Reading.next, readBare, hq, wordToken]
  rw [hopen]
  constructor
  · exact not_mem_of_tokens_quoted
  · intro h
    have hread := @tokens_doubled q [] s [] (by simp)
    rwa [doubled_of_not_mem h] at hread

/-! ## Unquoted text -/

/-- The text starts with a character between words, if it has any. -/
def StartsApart (s : List Char) : Prop :=
  ∀ c ∈ s.head?, isSeparator c = true

/-- The text ends with a character between words. -/
def EndsApart (s : List Char) : Prop :=
  ∃ c ∈ s.getLast?, isSeparator c = true

/-- A text without quotes. -/
def IsPlain (s : List Char) : Prop :=
  ∀ c ∈ s, isQuote c = false

instance : DecidablePred StartsApart
  | [] => isTrue fun _ h => nomatch h
  | c :: _ => decidable_of_iff (isSeparator c = true) (by simp [StartsApart])

instance (s : List Char) : Decidable (EndsApart s) :=
  decidable_of_iff (s.getLast?.any isSeparator = true) (by simp [EndsApart, Option.any_eq_true])

instance (s : List Char) : Decidable (IsPlain s) :=
  decidable_of_iff (s.all (fun c => !isQuote c) = true) (by simp [IsPlain])

/-- A character between words ends the word before it and belongs to none. -/
theorem tokens_bare_cons (word : List Char) {c : Char} (h : isSeparator c = true)
    (rest : List Char) :
    (Reading.bare word).tokens (c :: rest) =
      wordToken word ++ separatorToken c ++ (Reading.bare []).tokens rest := by
  have hquote := isQuote_eq_false_of_isSeparator h
  simp [Reading.tokens, Reading.next, readBare, hquote, h]

theorem tokens_bare_of_startsApart (word : List Char) {rest : List Char} (h : StartsApart rest) :
    (Reading.bare word).tokens rest = wordToken word ++ (Reading.bare []).tokens rest := by
  cases rest with
  | nil => simp [Reading.tokens, Reading.finish, wordToken]
  | cons c rest =>
      have hc : isSeparator c = true := h c rfl
      rw [tokens_bare_cons word hc, tokens_bare_cons [] hc, wordToken, List.nil_append,
        List.append_assoc]

/-- Unquoted text is read by itself if what follows starts with a character between words. -/
theorem tokens_bare_append (word : List Char) {s rest : List Char} (hs : IsPlain s)
    (h : StartsApart rest) :
    (Reading.bare word).tokens (s ++ rest) =
      (Reading.bare word).tokens s ++ (Reading.bare []).tokens rest := by
  induction s generalizing word with
  | nil => exact tokens_bare_of_startsApart word h
  | cons c s ih =>
      obtain ⟨hquote, hs⟩ := List.forall_mem_cons.1 hs
      by_cases hc : isSeparator c = true
      · rw [List.cons_append, tokens_bare_cons word hc, tokens_bare_cons word hc, ih [] hs]
        simp only [List.append_assoc]
      · simpa [Reading.tokens, Reading.next, readBare, hquote, hc] using ih (word ++ [c]) hs

/-- Unquoted text that ends with a character between words is read by itself. -/
theorem tokens_bare_append_of_endsApart (word : List Char) {s : List Char} (hs : IsPlain s)
    (hend : EndsApart s) (rest : List Char) :
    (Reading.bare word).tokens (s ++ rest) =
      (Reading.bare word).tokens s ++ (Reading.bare []).tokens rest := by
  obtain ⟨c, hlast, hc⟩ := hend
  obtain ⟨front, rfl⟩ := List.getLast?_eq_some_iff.1 hlast
  have hfront : IsPlain front := fun d hd => hs d (List.mem_append_left _ hd)
  have hapart : ∀ t : List Char, StartsApart (c :: t) := fun t d hd => by
    obtain rfl := Option.some.inj hd
    exact hc
  rw [List.append_assoc, List.singleton_append, tokens_bare_append word hfront (hapart rest),
    tokens_bare_append word hfront (hapart []), tokens_bare_cons [] hc, tokens_bare_cons [] hc]
  simp [Reading.tokens, Reading.finish, wordToken]

/-- Unquoted text is read as words and symbols. -/
theorem isQuoted_of_mem_tokens_bare {word s : List Char} (hs : IsPlain s) {t : Token}
    (h : t ∈ (Reading.bare word).tokens s) : t.isQuoted = false := by
  have hword : ∀ word, t ∈ wordToken word → t.isQuoted = false := by
    intro word hmem
    cases word with
    | nil => cases hmem
    | cons c word =>
        obtain rfl := List.mem_singleton.1 hmem
        rfl
  induction s generalizing word with
  | nil => exact hword word h
  | cons c s ih =>
      obtain ⟨hquote, hs⟩ := List.forall_mem_cons.1 hs
      by_cases hc : isSeparator c = true
      · rw [tokens_bare_cons word hc, List.append_assoc, List.mem_append, List.mem_append] at h
        rcases h with h | h | h
        · exact hword word h
        · unfold separatorToken at h
          split at h
          · obtain rfl := List.mem_singleton.1 h
            rfl
          · cases h
        · exact ih hs h
      · refine @ih (word ++ [c]) hs ?_
        simpa [Reading.tokens, Reading.next, readBare, hquote, hc] using h

/-! ## Pieces -/

/-- The tokens that a piece is meant to be. -/
def Piece.tokens : Piece → List Token
  | .plain s => Sql.tokens s
  | .name s => [.name s]
  | .text s => [.text s]

/-- A plain piece that can stand between any two pieces. -/
def IsSpacer (s : String) : Prop :=
  IsPlain s.toList ∧ StartsApart s.toList ∧ EndsApart s.toList

instance (s : String) : Decidable (IsSpacer s) :=
  inferInstanceAs (Decidable (_ ∧ _))

/-- Pieces that are read as they are meant, if what follows starts with a character between
words. -/
structure WellSpaced (pieces : List Piece) : Prop where
  isPlain : ∀ s, .plain s ∈ pieces → IsPlain s.toList
  tokens_append : ∀ rest, StartsApart rest →
    (Reading.bare []).tokens ((render pieces).toList ++ rest) =
      pieces.flatMap Piece.tokens ++ (Reading.bare []).tokens rest

theorem startsApart_nil : StartsApart [] :=
  fun _ h => nomatch h

theorem StartsApart.append {s : List Char} (h : StartsApart s) (hne : s ≠ []) (rest : List Char) :
    StartsApart (s ++ rest) := by
  obtain ⟨c, s, rfl⟩ := List.exists_cons_of_ne_nil hne
  exact h

theorem StartsApart.head?_ne {rest : List Char} (h : StartsApart rest) {q : Char}
    (hq : isQuote q = true) : rest.head? ≠ some q := by
  intro hhead
  rw [isQuote_eq_false_of_isSeparator (h q hhead)] at hq
  cases hq

theorem EndsApart.ne_nil {s : List Char} (h : EndsApart s) : s ≠ [] := by
  rintro rfl
  obtain ⟨c, hc, -⟩ := h
  cases hc

theorem toList_render_cons (piece : Piece) (pieces : List Piece) :
    (render (piece :: pieces)).toList = piece.render.toList ++ (render pieces).toList := by
  rw [render, String.toList_append]

theorem IsSpacer.startsApart {s : String} (h : IsSpacer s) (pieces : List Piece) :
    StartsApart (render (.plain s :: pieces)).toList := by
  obtain ⟨-, hstart, hend⟩ := h
  rw [toList_render_cons]
  exact hstart.append hend.ne_nil _

theorem wellSpaced_nil : WellSpaced [] where
  isPlain := fun _ h => nomatch h
  tokens_append := fun _ _ => rfl

/-- Whatever a name holds, it is read as one name. -/
theorem wellSpaced_name (s : String) : WellSpaced [.name s] where
  isPlain := by simp
  tokens_append := by
    intro rest hrest
    have hread := @tokens_quoteChars '"' rfl [] s.toList rest (hrest.head?_ne rfl)
    simpa [render, Piece.render, quoteName, Piece.tokens, wordToken, quotedToken] using hread

/-- Whatever a text holds, it is read as one text. -/
theorem wellSpaced_text (s : String) : WellSpaced [.text s] where
  isPlain := by simp
  tokens_append := by
    intro rest hrest
    have hread := @tokens_quoteChars '\x27' rfl [] s.toList rest (hrest.head?_ne rfl)
    simpa [render, Piece.render, quoteText, Piece.tokens, wordToken, quotedToken] using hread

theorem wellSpaced_plain {s : String} (hs : IsPlain s.toList) : WellSpaced [.plain s] where
  isPlain := by simpa using hs
  tokens_append := by
    intro rest hrest
    have hread := tokens_bare_append [] hs hrest
    simpa [render, Piece.render, Piece.tokens, Sql.tokens] using hread

namespace WellSpaced

variable {a b : List Piece} {s : String}

theorem append (ha : WellSpaced a) (hb : WellSpaced b) (h : StartsApart (render b).toList) :
    WellSpaced (a ++ b) where
  isPlain := by
    intro s hs
    exact (List.mem_append.1 hs).elim (ha.isPlain s) (hb.isPlain s)
  tokens_append := by
    intro rest hrest
    have hapart : StartsApart ((render b).toList ++ rest) := by
      by_cases hne : (render b).toList = []
      · rwa [hne]
      · exact h.append hne rest
    rw [render_append, String.toList_append, List.append_assoc, ha.tokens_append _ hapart,
      hb.tokens_append _ hrest, List.flatMap_append, List.append_assoc]

/-- A plain piece in front, if it ends with a character between words. -/
theorem plain_cons (hs : IsPlain s.toList) (hend : EndsApart s.toList) (ha : WellSpaced a) :
    WellSpaced (.plain s :: a) where
  isPlain := by
    intro t ht
    rcases List.mem_cons.1 ht with heq | ht
    · rwa [Piece.plain.inj heq]
    · exact ha.isPlain t ht
  tokens_append := by
    intro rest hrest
    rw [toList_render_cons, List.append_assoc]
    show (Reading.bare []).tokens (s.toList ++ _) = _
    rw [tokens_bare_append_of_endsApart [] hs hend, ha.tokens_append _ hrest, List.flatMap_cons,
      List.append_assoc]
    rfl

/-- Pieces with a spacer between them. -/
theorem spaced (ha : WellSpaced a) (hs : IsSpacer s) (hb : WellSpaced b) :
    WellSpaced (a ++ .plain s :: b) :=
  ha.append (plain_cons hs.1 hs.2.2 hb) (hs.startsApart b)

/-- Groups with a spacer between neighbours. -/
theorem separated (hs : IsSpacer s) {groups : List (List Piece)}
    (h : ∀ group ∈ groups, WellSpaced group) : WellSpaced (Sql.separated s groups) := by
  induction groups with
  | nil => exact wellSpaced_nil
  | cons first rest ih =>
      obtain ⟨hfirst, hrest⟩ := List.forall_mem_cons.1 h
      cases rest with
      | nil => exact hfirst
      | cons next rest => exact hfirst.spaced hs (ih hrest)

/-- The tokens of a text are those of its pieces. -/
theorem tokens_render (h : WellSpaced a) : tokens (render a) = a.flatMap Piece.tokens := by
  have hread := h.tokens_append [] startsApart_nil
  simpa [tokens, Reading.tokens, Reading.finish, wordToken] using hread

/-- What follows a spacer is read by itself, whatever it is. -/
theorem tokens_append_spacer (h : WellSpaced a) (hs : IsSpacer s) (rest : List Char) :
    (Reading.bare []).tokens ((render a).toList ++ (s.toList ++ rest)) =
      a.flatMap Piece.tokens ++ tokens s ++ (Reading.bare []).tokens rest := by
  obtain ⟨hplain, hstart, hend⟩ := hs
  rw [h.tokens_append _ (hstart.append hend.ne_nil rest),
    tokens_bare_append_of_endsApart [] hplain hend, List.append_assoc]
  rfl

end WellSpaced

theorem flatMap_tokens_separated (s : String) (groups : List (List Piece)) :
    (separated s groups).flatMap Piece.tokens =
      List.intercalate (tokens s) (groups.map fun group => group.flatMap Piece.tokens) := by
  induction groups with
  | nil => rfl
  | cons first rest ih =>
      cases rest with
      | nil => simp [separated]
      | cons next rest =>
          rw [separated, List.flatMap_append, List.flatMap_cons, ih]
          rfl

theorem not_mem_flatMap_tokens_separated {t : Token} {s : String} {groups : List (List Piece)}
    (hs : t ∉ tokens s) (h : ∀ group ∈ groups, t ∉ group.flatMap Piece.tokens) :
    t ∉ (separated s groups).flatMap Piece.tokens := by
  induction groups with
  | nil => exact List.not_mem_nil
  | cons first rest ih =>
      obtain ⟨hfirst, hrest⟩ := List.forall_mem_cons.1 h
      cases rest with
      | nil => exact hfirst
      | cons next rest =>
          rw [separated, List.flatMap_append, List.flatMap_cons, List.mem_append, List.mem_append]
          exact not_or.2 ⟨hfirst, not_or.2 ⟨hs, ih hrest⟩⟩

/-! ## What is quoted -/

namespace Piece

/-- The token between quotes that a piece is, if it is one. -/
def quoted? : Piece → Option Token
  | .plain _ => none
  | .name s => some (.name s)
  | .text s => some (.text s)

/-- The piece without what stands between its quotes. -/
def masked : Piece → Piece
  | .plain s => .plain s
  | .name _ => .name ""
  | .text _ => .text ""

end Piece

theorem Token.masked_of_not_isQuoted {t : Token} (h : t.isQuoted = false) : t.masked = t := by
  cases t with
  | word _ => rfl
  | symbol _ => rfl
  | name _ => cases h
  | text _ => cases h
  | unclosed _ => cases h

theorem filterMap_quoted?_separated (s : String) (groups : List (List Piece)) :
    (separated s groups).filterMap Piece.quoted? =
      groups.flatMap (·.filterMap Piece.quoted?) := by
  induction groups with
  | nil => rfl
  | cons first rest ih =>
      cases rest with
      | nil => simp [separated]
      | cons next rest =>
          have hplain : Piece.quoted? (.plain s) = none := rfl
          rw [separated, List.filterMap_append, List.filterMap_cons_none hplain, ih]
          rfl

theorem map_masked_separated (s : String) (groups : List (List Piece)) :
    (separated s groups).map Piece.masked =
      separated s (groups.map fun group => group.map Piece.masked) := by
  induction groups with
  | nil => rfl
  | cons first rest ih =>
      cases rest with
      | nil => rfl
      | cons next rest => simp [separated, ih, Piece.masked]

namespace WellSpaced

variable {a b : List Piece}

theorem isQuoted_of_plain (h : WellSpaced a) {s : String} (hs : .plain s ∈ a) :
    ∀ t ∈ tokens s, t.isQuoted = false :=
  fun _ => isQuoted_of_mem_tokens_bare (h.isPlain s hs)

/-- The quoted tokens of a text are those of its pieces. -/
theorem filter_isQuoted_tokens (h : WellSpaced a) :
    (tokens (render a)).filter Token.isQuoted = a.filterMap Piece.quoted? := by
  have hpiece : ∀ piece ∈ a, piece.tokens.filter Token.isQuoted = piece.quoted?.toList := by
    intro piece hpiece
    cases piece with
    | plain s =>
        refine List.filter_eq_nil_iff.2 fun t ht => ?_
        rw [h.isQuoted_of_plain hpiece t ht]
        exact Bool.false_ne_true
    | name s => rfl
    | text s => rfl
  rw [h.tokens_render, List.filter_flatMap, List.filterMap_eq_flatMap_toList]
  exact List.flatMap_congr hpiece

/-- What the pieces have outside quotes, the tokens have. -/
theorem map_masked_tokens (h : WellSpaced a) :
    (tokens (render a)).map Token.masked = (a.map Piece.masked).flatMap Piece.tokens := by
  have hpiece : ∀ piece ∈ a, piece.tokens.map Token.masked = piece.masked.tokens := by
    intro piece hpiece
    cases piece with
    | plain s =>
        have hsame : ∀ t ∈ tokens s, t.masked = t := fun t ht =>
          Token.masked_of_not_isQuoted (h.isQuoted_of_plain hpiece t ht)
        exact (List.map_congr_left hsame).trans (List.map_id _)
    | name s => rfl
    | text s => rfl
  rw [h.tokens_render, List.map_flatMap, List.flatMap_map]
  exact List.flatMap_congr hpiece

end WellSpaced

/-! ## Words -/

/-- A text that is read as one word. -/
def IsWord (s : String) : Prop :=
  s.toList ≠ [] ∧ ∀ c ∈ s.toList, isQuote c = false ∧ isSeparator c = false

theorem IsWord.isPlain {s : String} (h : IsWord s) : IsPlain s.toList :=
  fun c hc => (h.2 c hc).1

theorem tokens_bare_word (word : List Char) {s : List Char}
    (h : ∀ c ∈ s, isQuote c = false ∧ isSeparator c = false) :
    (Reading.bare word).tokens s = wordToken (word ++ s) := by
  induction s generalizing word with
  | nil => simp [Reading.tokens, Reading.finish]
  | cons c s ih =>
      obtain ⟨⟨hquote, hc⟩, hs⟩ := List.forall_mem_cons.1 h
      simpa [Reading.tokens, Reading.next, readBare, hquote, hc] using ih (word ++ [c]) hs

theorem IsWord.tokens {s : String} (h : IsWord s) : tokens s = [.word s] := by
  obtain ⟨c, rest, hs⟩ := List.exists_cons_of_ne_nil h.1
  rw [Sql.tokens, tokens_bare_word [] h.2, List.nil_append, hs]
  show [Token.word (String.ofList (c :: rest))] = _
  rw [← hs, String.ofList_toList]

theorem toNat_of_isAlphanum {c : Char} (h : c.isAlphanum = true) :
    48 ≤ c.toNat ∧ c.toNat ≤ 122 := by
  have hrange : ∀ {low high : Nat}, 48 ≤ low → high ≤ 122 → low ≤ c.toNat → c.toNat ≤ high →
      48 ≤ c.toNat ∧ c.toNat ≤ 122 := by
    omega
  obtain hletter | hdigit := Bool.or_eq_true_iff.1 h
  · obtain hupper | hlower := Bool.or_eq_true_iff.1 hletter
    · have hupper : 'A'.val ≤ c.val ∧ c.val ≤ 'Z'.val := of_decide_eq_true hupper
      exact hrange (by decide) (by decide) (UInt32.le_iff_toNat_le.1 hupper.1)
        (UInt32.le_iff_toNat_le.1 hupper.2)
    · obtain ⟨hfrom, hto⟩ := Bool.and_eq_true_iff.1 hlower
      exact hrange (by decide) (by decide) (UInt32.le_iff_toNat_le.1 (of_decide_eq_true hfrom))
        (UInt32.le_iff_toNat_le.1 (of_decide_eq_true hto))
  · obtain ⟨hfrom, hto⟩ := Bool.and_eq_true_iff.1 hdigit
    exact hrange (by decide) (by decide) (UInt32.le_iff_toNat_le.1 (of_decide_eq_true hfrom))
      (UInt32.le_iff_toNat_le.1 (of_decide_eq_true hto))

/-- Letters and digits belong to words. -/
theorem isWordChar_of_isAlphanum {c : Char} (h : c.isAlphanum = true) :
    isQuote c = false ∧ isSeparator c = false := by
  obtain ⟨hlow, hhigh⟩ := toNat_of_isAlphanum h
  -- quotes and symbols come before all digits, and so does the only blank below `z`
  have hne : ∀ d : Char, d.toNat < 48 → c ≠ d := by
    rintro d hd rfl
    omega
  have hblank : Text.isBlank c = false := by
    simp only [Text.isBlank, Bool.or_eq_false_iff, Bool.and_eq_false_iff, decide_eq_false_iff_not,
      beq_eq_false_iff_ne]
    omega
  constructor
  · simp [isQuote, hne '"' (by decide), hne '\x27' (by decide)]
  · simp [isSeparator, isSymbol, hblank, hne '(' (by decide), hne ')' (by decide),
      hne ',' (by decide)]

end TabularView.Sql
