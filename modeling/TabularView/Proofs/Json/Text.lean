import Mathlib.Data.List.DropRight
import TabularView.Json.Parser
import TabularView.Json.Printer
import TabularView.Proofs.Number.Reading

set_option autoImplicit false

/-! # JSON texts are read back

A value whose numbers are whole and have 64 bits is read back as it was written
(`parse?_pretty`). -/

namespace TabularView.Json

/-! ## Numbers -/

/-- The text does not go on with what could belong to a number. -/
def EndsNumber (rest : List Char) : Prop :=
  ∀ c ∈ rest.head?, Text.isAsciiDigit c = false ∧ c ≠ '.' ∧ c ≠ 'e' ∧ c ≠ 'E'

theorem le_ofDigitChars (digits : List Char) (acc : Nat) :
    acc ≤ Nat.ofDigitChars 10 digits acc := by
  induction digits generalizing acc with
  | nil => exact Nat.le_refl _
  | cons c rest ih =>
      calc acc ≤ 10 * acc + (c.toNat - '0'.toNat) := by omega
        _ ≤ Nat.ofDigitChars 10 (c :: rest) acc := ih _

/-- Digits of a number that fits are all taken in. -/
theorem fitDigits_eq {digits : List Char} (h : ∀ c ∈ digits, c.isDigit = true) {acc : Nat}
    (hfits : isUnsigned64 (Nat.ofDigitChars 10 digits acc : Nat) = true) :
    fitDigits acc digits = (Nat.ofDigitChars 10 digits acc, []) := by
  induction digits generalizing acc with
  | nil => rfl
  | cons c rest ih =>
      obtain ⟨hc, hrest⟩ := List.forall_mem_cons.1 h
      have hvalue : Nat.ofDigitChars 10 (c :: rest) acc =
          Nat.ofDigitChars 10 rest (acc * 10 + (c.toNat - '0'.toNat)) := by
        rw [Nat.mul_comm]
        rfl
      rw [hvalue] at hfits ⊢
      have hle := le_ofDigitChars rest (acc * 10 + (c.toNat - '0'.toNat))
      have hstep : isUnsigned64 (acc * 10 + (c.toNat - '0'.toNat) : Nat) = true := by
        simp only [isUnsigned64, Bool.and_eq_true, decide_eq_true_eq] at hfits ⊢
        omega
      rw [fitDigits, Text.asciiDigit?_of_isDigit hc]
      dsimp only
      rw [if_pos hstep, ih hrest hfits]

/-- Only zero is written with a zero in front. -/
theorem head?_toDigits_ne {n : Nat} (h : 0 < n) : (Nat.toDigits 10 n).head? ≠ some '0' := by
  induction n using Nat.strongRecOn with
  | ind n ih =>
      have hsmall : ∀ m < 10, 0 < m → (Nat.toDigits 10 m).head? ≠ some '0' := by decide
      by_cases hlt : n < 10
      · exact hsmall n hlt h
      · have hne := Nat.toDigits_ne_nil (b := 10) (n := n / 10)
        rw [Nat.toDigits_of_base_le (by decide) (by omega), List.head?_append_of_ne_nil _ hne]
        exact ih (n / 10) (by omega) (by omega)

theorem isPlainWhole_toDigits (n : Nat) : isPlainWhole (Nat.toDigits 10 n) = true := by
  rcases Nat.eq_zero_or_pos n with rfl | hn
  · decide
  · simp [isPlainWhole, Nat.toDigits_ne_nil, head?_toDigits_ne hn]

theorem fraction?_of_endsNumber {rest : List Char} (h : EndsNumber rest) :
    fraction? rest = some (none, rest) := by
  unfold fraction?
  split
  · exact absurd rfl (h '.' rfl).2.1
  · rfl

theorem exponent?_of_endsNumber {rest : List Char} (h : EndsNumber rest) :
    exponent? rest = some (none, rest) := by
  cases rest with
  | nil => rfl
  | cons c rest =>
      obtain ⟨-, -, he, hE⟩ := h c rfl
      simp [exponent?, he, hE]

/-- The number fits in 64 bits, without or with a sign. -/
def FitsWord (n : Int) : Prop :=
  isUnsigned64 n = true ∨ isSigned64 n = true

theorem numberOf_toDigits {n : Int} (h : FitsWord n) :
    numberOf (decide (n < 0)) (Nat.toDigits 10 n.natAbs) none none = some (.whole n) := by
  have hfits : isUnsigned64 (Nat.ofDigitChars 10 (Nat.toDigits 10 n.natAbs) 0 : Nat) = true := by
    rw [Nat.ofDigitChars_ten_toDigits]
    simp only [FitsWord, isUnsigned64, isSigned64, Bool.and_eq_true, decide_eq_true_eq] at h ⊢
    omega
  have hdigits := fitDigits_eq (fun c hc => Text.isDigit_of_mem_toDigits hc) hfits
  rw [Nat.ofDigitChars_ten_toDigits] at hdigits
  have hvalue : (if decide (n < 0) = true then -(n.natAbs : Int) else n.natAbs) = n := by
    by_cases hneg : n < 0
    · rw [if_pos (decide_eq_true hneg)]
      omega
    · rw [if_neg (by simp [hneg])]
      omega
  have hsign : (!decide (n < 0) || (n.natAbs != 0 && isSigned64 n)) = true := by
    by_cases hneg : n < 0
    · have hsigned : isSigned64 n = true := h.resolve_left fun hunsigned => by
        simp only [isUnsigned64, Bool.and_eq_true, decide_eq_true_eq] at hunsigned
        omega
      simp [hsigned, hneg.ne]
    · simp [hneg]
  simp only [numberOf, Option.getD_none, Text.readDigits?, hdigits, fitDigits, hvalue, hsign,
    Option.bind_eq_bind, Option.bind_some, Option.isNone_none, and_self, if_true]

/-- A whole number is written as its digits, behind a sign if it is negative. -/
theorem toList_numberText (n : Int) : (numberText (.whole n)).toList =
    Numeral.signed (decide (n < 0)) (Nat.toDigits 10 n.natAbs) := by
  cases n with
  | ofNat n => exact Text.toList_toString_ofNat n
  | negSucc n =>
      rw [decide_eq_true (Int.negSucc_lt_zero n)]
      exact Text.toList_toString_negSucc n

/-- A number's text is read in parts; a digit is no sign. -/
theorem number?_signed (negative : Bool) {digits rest : List Char}
    (hdigits : ∀ c ∈ digits, c.isDigit = true) (hplain : isPlainWhole digits = true)
    (hrest : EndsNumber rest) : number? (Numeral.signed negative digits ++ rest) =
      (numberOf negative digits none none).map fun n => (n, rest) := by
  obtain ⟨htake, -⟩ := Text.span_digits hdigits fun c hc => (hrest c hc).1
  have hbody : ((fraction? ((digits ++ rest).drop digits.length)).bind fun p =>
      (exponent? p.2).bind fun q => (numberOf negative digits p.1 q.1).bind fun n =>
        some (n, q.2)) = (numberOf negative digits none none).map fun n => (n, rest) := by
    simp only [List.drop_left, fraction?_of_endsNumber hrest, exponent?_of_endsNumber hrest,
      Option.bind_some]
    cases numberOf negative digits none none <;> rfl
  cases negative with
  | true =>
      rw [← hbody]
      simp only [number?, Numeral.signed, htake, hplain, if_true, List.cons_append,
        Option.bind_eq_bind]
  | false =>
      cases digits with
      | nil => cases hplain
      | cons c tail =>
          have hc : c ≠ '-' := by
            rintro rfl
            exact absurd (hdigits '-' (List.mem_cons_self ..)) (by decide)
          rw [← hbody, show Numeral.signed false (c :: tail) = c :: tail from rfl]
          unfold number?
          dsimp only
          split
          · rename_i heq
            exact absurd (List.cons.inj heq).1 hc
          · simp only [htake, hplain, if_true, Option.bind_eq_bind]

/-- A number starts with a digit or a sign. -/
theorem number?_eq_none {c : Char} (hdigit : Text.isAsciiDigit c = false) (hsign : c ≠ '-')
    (s : List Char) : number? (c :: s) = none := by
  unfold number?
  dsimp only
  split
  · rename_i heq
    exact absurd (List.cons.inj heq).1 hsign
  · simp [hdigit, isPlainWhole]

theorem number?_numberText {n : Int} (h : FitsWord n) {rest : List Char} (hrest : EndsNumber rest) :
    number? ((numberText (.whole n)).toList ++ rest) = some (.whole n, rest) := by
  rw [toList_numberText, number?_signed _ (fun c hc => Text.isDigit_of_mem_toDigits hc)
    (isPlainWhole_toDigits _) hrest, numberOf_toDigits h]
  rfl

/-! ## Strings -/

theorem hexDigit?_hexChar : ∀ {n : Nat}, n < 16 → Text.hexDigit? (Text.hexChar n) = some n := by
  have hall : ∀ n < 16, Text.hexDigit? (Text.hexChar n) = some n := by decide
  intro n h
  exact hall n h

theorem fourHex?_hexChar {n : Nat} (h : n < 256) (rest : List Char) :
    fourHex? ('0' :: '0' :: Text.hexChar (n / 16) :: Text.hexChar (n % 16) :: rest) =
      some (n, rest) := by
  have hzero : Text.hexDigit? '0' = some 0 := by decide
  have hvalue : ((0 * 16 + 0) * 16 + n / 16) * 16 + n % 16 = n := by omega
  simp only [fourHex?, hzero, hexDigit?_hexChar (show n / 16 < 16 by omega),
    hexDigit?_hexChar (show n % 16 < 16 by omega), Option.bind_eq_bind, Option.bind_some, hvalue]

theorem unicodeEscape?_hexChar {c : Char} (h : c.toNat < 0x20) (rest : List Char) :
    unicodeEscape? ('0' :: '0' :: Text.hexChar (c.toNat / 16) :: Text.hexChar (c.toNat % 16) ::
      rest) = some (c, rest) := by
  have hhigh : ¬(0xD800 ≤ c.toNat ∧ c.toNat ≤ 0xDBFF) := by omega
  have hlow : ¬(0xDC00 ≤ c.toNat ∧ c.toNat ≤ 0xDFFF) := by omega
  simp only [unicodeEscape?, fourHex?_hexChar (show c.toNat < 256 by omega), Option.bind_eq_bind,
    Option.bind_some, if_neg hhigh, if_neg hlow, Char.ofNat_toNat]

/-- A character is written as itself, or as an escape that stands for it. -/
theorem escapeChar_cases (c : Char) :
    (escapeChar c = [c] ∧ c ≠ '"' ∧ c ≠ '\\' ∧ ¬c.toNat < 0x20) ∨
      ∃ escape, escapeChar c = '\\' :: escape ∧
        ∀ rest, escape? (escape ++ rest) = some (c, rest) := by
  by_cases hnamed : c ∈ ['"', '\\', '\n', '\r', '\t', '\x08', '\x0c']
  · simp only [List.mem_cons, List.not_mem_nil, or_false] at hnamed
    rcases hnamed with rfl | rfl | rfl | rfl | rfl | rfl | rfl <;>
      exact .inr ⟨_, rfl, fun _ => rfl⟩
  · simp only [List.mem_cons, List.not_mem_nil, or_false, not_or] at hnamed
    by_cases hcontrol : c.toNat < 0x20
    · refine .inr ⟨['u', '0', '0', Text.hexChar (c.toNat / 16), Text.hexChar (c.toNat % 16)], ?_,
        unicodeEscape?_hexChar hcontrol⟩
      simp only [escapeChar, hnamed, hcontrol, if_true, if_false]
    · refine .inl ⟨?_, hnamed.1, hnamed.2.1, hcontrol⟩
      simp only [escapeChar, hnamed, hcontrol, if_false]

theorem stringBody_escapeChar (c : Char) (fuel : Nat) (rest : List Char) :
    stringBody (fuel + 1) (escapeChar c ++ rest) =
      (stringBody fuel rest).map fun (body, rest) => (c :: body, rest) := by
  rcases escapeChar_cases c with ⟨hself, hquote, hslash, hcontrol⟩ | ⟨escape, hself, hescape⟩
  · simp only [hself, List.singleton_append, stringBody, hquote, hslash, hcontrol, if_false]
    cases stringBody fuel rest <;> rfl
  · simp only [hself, List.cons_append, stringBody, hescape, show ('\\' = '"') = False by decide,
      if_true, if_false, Option.bind_eq_bind, Option.bind_some]
    cases stringBody fuel rest <;> rfl

/-- A written string is read back up to its closing quote. -/
theorem stringBody_flatMap (s rest : List Char) {fuel : Nat} (h : s.length < fuel) :
    stringBody fuel (s.flatMap escapeChar ++ '"' :: rest) = some (s, rest) := by
  induction s generalizing fuel with
  | nil =>
      obtain ⟨fuel, rfl⟩ := Nat.exists_eq_add_of_lt h
      simp [stringBody]
  | cons c s ih =>
      rw [List.length_cons] at h
      obtain ⟨fuel, rfl⟩ : ∃ n, fuel = n + 1 := ⟨fuel - 1, by omega⟩
      rw [List.flatMap_cons, List.append_assoc, stringBody_escapeChar, ih (by omega)]
      rfl

theorem length_le_length_flatMap (s : List Char) :
    s.length ≤ (s.flatMap escapeChar).length := by
  induction s with
  | nil => exact Nat.le_refl _
  | cons c s ih =>
      have hchar : 0 < (escapeChar c).length := by
        rcases escapeChar_cases c with ⟨hself, -⟩ | ⟨escape, hself, -⟩ <;> simp [hself]
      rw [List.flatMap_cons, List.length_append, List.length_cons]
      omega

theorem stringBody_quoted (s rest : List Char) :
    stringBody ((s.flatMap escapeChar ++ '"' :: rest).length + 1)
      (s.flatMap escapeChar ++ '"' :: rest) = some (s, rest) := by
  refine stringBody_flatMap s rest ?_
  have hle := length_le_length_flatMap s
  rw [List.length_append]
  omega

theorem toList_quoted_append (s : String) (rest : List Char) :
    (quoted s).toList ++ rest = '"' :: (s.toList.flatMap escapeChar ++ '"' :: rest) := by
  rw [quoted, String.toList_ofList, List.cons_append, List.append_assoc, List.singleton_append]

/-! ## Blanks -/

theorem skipSpaces_append {blank : List Char} (h : ∀ c ∈ blank, isSpace c = true) (s : List Char) :
    skipSpaces (blank ++ s) = skipSpaces s :=
  List.dropWhile_append_of_pos h

theorem skipSpaces_skipSpaces (s : List Char) : skipSpaces (skipSpaces s) = skipSpaces s :=
  List.dropWhile_idempotent isSpace s

theorem skipSpaces_of_not_isSpace {c : Char} (h : isSpace c = false) (s : List Char) :
    skipSpaces (c :: s) = c :: s :=
  List.dropWhile_cons_of_neg (by simp [h])

theorem value?_skipSpaces (fuel : Nat) (s : List Char) :
    value? fuel (skipSpaces s) = value? fuel s := by
  cases fuel with
  | zero => rfl
  | succ fuel => simp only [value?, skipSpaces_skipSpaces]

theorem items?_skipSpaces (fuel : Nat) (s : List Char) :
    items? fuel (skipSpaces s) = items? fuel s := by
  cases fuel with
  | zero => rfl
  | succ fuel => simp only [items?, value?_skipSpaces]

theorem fields?_skipSpaces (fuel : Nat) (s : List Char) :
    fields? fuel (skipSpaces s) = fields? fuel s := by
  cases fuel with
  | zero => rfl
  | succ fuel => simp only [fields?, skipSpaces_skipSpaces]

theorem isSpace_of_mem_newLine {level : Nat} {c : Char} (h : c ∈ (newLine level).toList) :
    isSpace c = true := by
  rw [newLine, String.toList_ofList, List.mem_cons] at h
  rcases h with rfl | h
  · rfl
  · rw [List.eq_of_mem_replicate h]
    rfl

theorem skipSpaces_newLine_append {level : Nat} {c : Char} (h : isSpace c = false)
    (s : List Char) : skipSpaces ((newLine level).toList ++ c :: s) = c :: s := by
  rw [skipSpaces_append fun _ => isSpace_of_mem_newLine, skipSpaces_of_not_isSpace h]

/-! ## Lists and objects -/

theorem items?_closing (fuel : Nat) (s : List Char) : items? fuel (']' :: s) = none := by
  cases fuel with
  | zero => rfl
  | succ fuel =>
      have hvalue : value? fuel (']' :: s) = none := by
        cases fuel <;> rfl
      rw [items?, hvalue]
      rfl

theorem fields?_closing (fuel : Nat) (s : List Char) : fields? fuel ('\x7d' :: s) = none := by
  cases fuel <;> rfl

/-- A list that is not empty is read through its items. -/
theorem value?_array {fuel : Nat} {s rest : List Char} {items : List Json}
    (h : items? fuel s = some (items, rest)) :
    value? (fuel + 1) ('[' :: s) = some (.array items, rest) := by
  rw [← items?_skipSpaces] at h
  rw [value?]
  simp only [skipSpaces_of_not_isSpace (show isSpace '[' = false from rfl)]
  split
  · rename_i heq
    rw [heq, items?_closing] at h
    cases h
  · rw [h]
    rfl

/-- An object that is not empty is read through its fields. -/
theorem value?_object {fuel : Nat} {s rest : List Char} {fields : List (String × Json)}
    (h : fields? fuel s = some (fields, rest)) :
    value? (fuel + 1) ('\x7b' :: s) = some (.object fields, rest) := by
  rw [← fields?_skipSpaces] at h
  rw [value?]
  simp only [skipSpaces_of_not_isSpace (show isSpace '\x7b' = false from rfl)]
  split
  · rename_i heq
    rw [heq, fields?_closing] at h
    cases h
  · rw [h]
    rfl

/-- The fields from one that has been read on, up to the closing brace. -/
def fieldsFrom? (fuel : Nat) (field : String × Json) (s : List Char) :
    Option (List (String × Json) × List Char) :=
  match skipSpaces s with
  | ',' :: rest => do
    let (fields, rest) ← fields? fuel rest
    some (field :: fields, rest)
  | '\x7d' :: rest => some ([field], rest)
  | _ => none

theorem fields?_quoted (name : String) {fuel : Nat} {s rest : List Char} {j : Json}
    (h : value? fuel s = some (j, rest)) :
    fields? (fuel + 1) ((quoted name).toList ++ ':' :: s) = fieldsFrom? fuel (name, j) rest := by
  rw [fields?, toList_quoted_append, skipSpaces_of_not_isSpace rfl]
  simp only [stringBody_quoted, skipSpaces_of_not_isSpace (show isSpace ':' = false from rfl), h,
    String.ofList_toList, Option.bind_eq_bind, Option.bind_some]
  rfl

/-! ## Texts of values -/

theorem endsNumber_cons {c : Char}
    (h : Text.isAsciiDigit c = false ∧ c ≠ '.' ∧ c ≠ 'e' ∧ c ≠ 'E') (s : List Char) :
    EndsNumber (c :: s) := by
  intro d hd
  cases hd
  exact h

/-- The text is read as the value whatever it is followed by, unless that continues a number. -/
def Reads (text : String) (j : Json) : Prop :=
  ∀ (fuel : Nat) (rest : List Char), text.toList.length ≤ fuel → EndsNumber rest →
    value? (fuel + 1) (text.toList ++ rest) = some (j, rest)

/-- The text is read as the field whatever it is followed by, unless that continues a number. -/
def ReadsField (text : String) (field : String × Json) : Prop :=
  ∀ (fuel : Nat) (rest : List Char), text.toList.length < fuel → EndsNumber rest →
    fields? (fuel + 1) (text.toList ++ rest) = fieldsFrom? fuel field rest

theorem Reads.onNewLine {text : String} {j : Json} (h : Reads text j) (level : Nat) :
    Reads (newLine level ++ text) j := by
  intro fuel rest hfuel hrest
  rw [String.toList_append, List.length_append] at hfuel
  rw [String.toList_append, List.append_assoc, ← value?_skipSpaces,
    skipSpaces_append fun _ => isSpace_of_mem_newLine, value?_skipSpaces]
  exact h fuel rest (by omega) hrest

theorem Reads.field {text : String} {j : Json} (h : Reads text j) (level : Nat) (name : String) :
    ReadsField (newLine level ++ quoted name ++ ": " ++ text) (name, j) := by
  intro fuel rest hfuel hrest
  simp only [String.toList_append, List.length_append] at hfuel
  obtain ⟨fuel, rfl⟩ : ∃ n, fuel = n + 1 := ⟨fuel - 1, by omega⟩
  have hvalue : value? (fuel + 1) (' ' :: (text.toList ++ rest)) = some (j, rest) := by
    rw [← value?_skipSpaces, ← List.singleton_append, skipSpaces_append (by simp [isSpace]),
      value?_skipSpaces]
    exact h fuel rest (by omega) hrest
  rw [← fields?_quoted name hvalue]
  simp only [String.toList_append, List.append_assoc]
  rw [← fields?_skipSpaces, skipSpaces_append fun _ => isSpace_of_mem_newLine, fields?_skipSpaces]
  rfl

theorem toList_joinWith_comma (s t : String) (texts : List String) :
    (Text.joinWith "," (s :: t :: texts)).toList =
      s.toList ++ ',' :: (Text.joinWith "," (t :: texts)).toList := by
  rw [Text.joinWith_cons_cons, String.toList_append, String.toList_append, List.append_assoc]
  rfl

/-- Texts with commas between are read one after the other, up to the closing bracket. -/
theorem items?_joinWith {texts : List String} {items : List Json}
    (h : List.Forall₂ Reads texts items) (hne : texts ≠ []) {close rest : List Char}
    (hclose : skipSpaces close = ']' :: rest) (hends : EndsNumber close) {fuel : Nat}
    (hfuel : (Text.joinWith "," texts).toList.length < fuel) :
    items? (fuel + 1) ((Text.joinWith "," texts).toList ++ close) = some (items, rest) := by
  induction h generalizing fuel with
  | nil => exact absurd rfl hne
  | @cons text j texts items hread htexts ih =>
      obtain ⟨fuel, rfl⟩ : ∃ n, fuel = n + 1 := ⟨fuel - 1, by omega⟩
      cases htexts with
      | nil =>
          simp only [Text.joinWith] at hfuel ⊢
          simp only [items?, hread fuel close (by omega) hends, hclose, Option.bind_eq_bind,
            Option.bind_some]
      | @cons next i texts items hnext htexts =>
          rw [toList_joinWith_comma, List.length_append, List.length_cons] at hfuel
          rw [toList_joinWith_comma, List.append_assoc, List.cons_append, items?,
            hread _ _ (by omega) (endsNumber_cons (by decide) _)]
          simp only [skipSpaces_of_not_isSpace (show isSpace ',' = false from rfl),
            ih (List.cons_ne_nil _ _) (show _ < fuel by omega), Option.bind_eq_bind,
            Option.bind_some]

theorem fields?_joinWith {texts : List String} {fields : List (String × Json)}
    (h : List.Forall₂ ReadsField texts fields) (hne : texts ≠ []) {close rest : List Char}
    (hclose : skipSpaces close = '\x7d' :: rest) (hends : EndsNumber close) {fuel : Nat}
    (hfuel : (Text.joinWith "," texts).toList.length < fuel) :
    fields? (fuel + 1) ((Text.joinWith "," texts).toList ++ close) = some (fields, rest) := by
  induction h generalizing fuel with
  | nil => exact absurd rfl hne
  | @cons text field texts fields hread htexts ih =>
      cases htexts with
      | nil =>
          simp only [Text.joinWith] at hfuel ⊢
          simp only [hread fuel close hfuel hends, fieldsFrom?, hclose]
      | @cons next i texts items hnext htexts =>
          rw [toList_joinWith_comma, List.length_append, List.length_cons] at hfuel
          obtain ⟨fuel, rfl⟩ : ∃ n, fuel = n + 1 := ⟨fuel - 1, by omega⟩
          rw [toList_joinWith_comma, List.append_assoc, List.cons_append,
            hread _ _ (by omega) (endsNumber_cons (by decide) _), fieldsFrom?]
          simp only [skipSpaces_of_not_isSpace (show isSpace ',' = false from rfl),
            ih (List.cons_ne_nil _ _) (show _ < fuel by omega), Option.bind_eq_bind,
            Option.bind_some]

/-! ## Scalars -/

theorem value?_number {fuel : Nat} {s rest : List Char} {n : JsonNumber}
    (h : number? s = some (n, rest)) : value? (fuel + 1) s = some (.number n, rest) := by
  have hnone : ∀ {c : Char} {t : List Char}, s = c :: t →
      Text.isAsciiDigit c = false ∧ c ≠ '-' → False := by
    rintro c t rfl ⟨hdigit, hsign⟩
    rw [number?_eq_none hdigit hsign] at h
    cases h
  have hblank : skipSpaces s = s := by
    cases s with
    | nil => rfl
    | cons c t =>
        refine skipSpaces_of_not_isSpace (Bool.eq_false_iff.2 fun hspace => hnone rfl ?_) t
        simp only [isSpace, Bool.or_eq_true, beq_iff_eq] at hspace
        rcases hspace with ((rfl | rfl) | rfl) | rfl <;> decide
  rw [value?, hblank]
  split
  case h_7 =>
    rw [h]
    rfl
  all_goals exact (hnone rfl (by decide)).elim

theorem reads_numberText {n : Int} (h : FitsWord n) :
    Reads (numberText (.whole n)) (.number (.whole n)) := by
  intro fuel rest hfuel hrest
  exact value?_number (number?_numberText h hrest)

theorem reads_quoted (value : String) : Reads (quoted value) (.string value) := by
  intro fuel rest hfuel hrest
  rw [toList_quoted_append, value?, skipSpaces_of_not_isSpace rfl]
  simp only [stringBody_quoted, Option.map_some, String.ofList_toList]

theorem word?_append (w : String) (s : List Char) : word? w (w.toList ++ s) = some s := by
  have hprefix : w.toList.isPrefixOf (w.toList ++ s) = true :=
    List.isPrefixOf_iff_prefix.2 (List.prefix_append _ _)
  rw [word?, if_pos hprefix, ← String.length_toList, List.drop_left]

theorem reads_null : Reads "null" .null := by
  intro fuel rest hfuel _
  rw [show "null".toList ++ rest = 'n' :: ("ull".toList ++ rest) by simp, value?,
    skipSpaces_of_not_isSpace rfl]
  simp only [word?_append, Option.map_some]

theorem reads_bool (value : Bool) : Reads (if value then "true" else "false") (.bool value) := by
  intro fuel rest hfuel _
  cases value with
  | true =>
      rw [if_pos rfl, show "true".toList ++ rest = 't' :: ("rue".toList ++ rest) by simp, value?,
        skipSpaces_of_not_isSpace rfl]
      simp only [word?_append, Option.map_some]
  | false =>
      rw [if_neg Bool.false_ne_true,
        show "false".toList ++ rest = 'f' :: ("alse".toList ++ rest) by simp, value?,
        skipSpaces_of_not_isSpace rfl]
      simp only [word?_append, Option.map_some]

/-! ## Reading back -/

theorem forall₂_prettyItems {level : Nat} {items : List Json}
    (h : ∀ j ∈ items, Reads (pretty level j) j) :
    List.Forall₂ Reads (prettyItems level items) items := by
  induction items with
  | nil => exact .nil
  | cons j items ih =>
      obtain ⟨hj, hitems⟩ := List.forall_mem_cons.1 h
      exact .cons (hj.onNewLine level) (ih hitems)

theorem forall₂_prettyFields {level : Nat} {fields : List (String × Json)}
    (h : ∀ field ∈ fields, Reads (pretty level field.2) field.2) :
    List.Forall₂ ReadsField (prettyFields level fields) fields := by
  induction fields with
  | nil => exact .nil
  | cons field fields ih =>
      obtain ⟨hfield, hfields⟩ := List.forall_mem_cons.1 h
      exact .cons (hfield.field level field.1) (ih hfields)

theorem endsNumber_newLine_append (level : Nat) (s : List Char) :
    EndsNumber ((newLine level).toList ++ s) := by
  rw [newLine, String.toList_ofList]
  exact endsNumber_cons (by decide) _

theorem reads_array {level : Nat} {items : List Json}
    (h : ∀ j ∈ items, Reads (pretty (level + 1) j) j) :
    Reads (pretty level (.array items)) (.array items) := by
  intro fuel rest hfuel hrest
  cases items with
  | nil => simp [pretty, value?, skipSpaces, isSpace]
  | cons j items =>
      have htext : (pretty level (.array (j :: items))).toList ++ rest =
          '[' :: ((Text.joinWith "," (prettyItems (level + 1) (j :: items))).toList ++
            ((newLine level).toList ++ ']' :: rest)) := by
        simp [pretty]
      have hlength := congrArg List.length htext
      simp only [List.length_append, List.length_cons] at hlength
      obtain ⟨fuel, rfl⟩ : ∃ n, fuel = n + 1 := ⟨fuel - 1, by omega⟩
      rw [htext]
      exact value?_array (items?_joinWith (forall₂_prettyItems h) (List.cons_ne_nil _ _)
        (skipSpaces_newLine_append rfl rest) (endsNumber_newLine_append level _) (by omega))

theorem reads_object {level : Nat} {fields : List (String × Json)}
    (h : ∀ field ∈ fields, Reads (pretty (level + 1) field.2) field.2) :
    Reads (pretty level (.object fields)) (.object fields) := by
  intro fuel rest hfuel hrest
  cases fields with
  | nil => simp [pretty, value?, skipSpaces, isSpace]
  | cons field fields =>
      have htext : (pretty level (.object (field :: fields))).toList ++ rest =
          '\x7b' :: ((Text.joinWith "," (prettyFields (level + 1) (field :: fields))).toList ++
            ((newLine level).toList ++ '\x7d' :: rest)) := by
        simp [pretty]
      have hlength := congrArg List.length htext
      simp only [List.length_append, List.length_cons] at hlength
      obtain ⟨fuel, rfl⟩ : ∃ n, fuel = n + 1 := ⟨fuel - 1, by omega⟩
      rw [htext]
      exact value?_object (fields?_joinWith (forall₂_prettyFields h) (List.cons_ne_nil _ _)
        (skipSpaces_newLine_append rfl rest) (endsNumber_newLine_append level _) (by omega))

/-- All numbers in the value are whole and have 64 bits. -/
inductive Exact : Json → Prop
  | null : Exact .null
  | bool (value : Bool) : Exact (.bool value)
  | number {n : Int} (h : FitsWord n) : Exact (.number (.whole n))
  | string (value : String) : Exact (.string value)
  | array {items : List Json} (h : ∀ j ∈ items, Exact j) : Exact (.array items)
  | object {fields : List (String × Json)} (h : ∀ field ∈ fields, Exact field.2) :
      Exact (.object fields)

theorem reads_pretty {j : Json} (h : Exact j) (level : Nat) : Reads (pretty level j) j := by
  induction h generalizing level with
  | null => exact reads_null
  | bool value => exact reads_bool value
  | number h => exact reads_numberText h
  | string value => exact reads_quoted value
  | array h ih => exact reads_array fun j hj => ih j hj (level + 1)
  | object h ih => exact reads_object fun field hfield => ih field hfield (level + 1)

/-- A value whose numbers are whole and have 64 bits is read back from its text. -/
theorem parse?_pretty {j : Json} (h : Exact j) (level : Nat) :
    parse? (pretty level j) = some j := by
  have hread := reads_pretty h level (pretty level j).toList.length []
    (Nat.le_refl _) (by intro c hc; cases hc)
  rw [List.append_nil] at hread
  simp only [parse?, hread]
  rfl

end TabularView.Json
