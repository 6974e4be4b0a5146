import TabularView.Proofs.Field.CanonicalDate
import TabularView.Proofs.Query.Compile
import TabularView.Proofs.Sql.Token

set_option autoImplicit false

/-! # Dates in conditions

A filter on a column of dates compares with the instant that its text stands for, so texts for one
instant lead to one predicate. The instant is written in the fixed form of timestamps, and a filter
with this text leads to the predicate again, as long as the year has four digits. An offset can lead
out of these years; then the literal is a text that no filter may have
(`Filter.predicate?_date_canonical`). -/

namespace TabularView

/-- The filter with another text to compare with. -/
def Filter.withText (text : String) : Filter → Filter
  | .noOp => .noOp
  | .keep operator _ => .keep operator (.string text)
  | .discard operator _ => .discard operator (.string text)

theorem Filter.comparison?_withText {filter : Filter} {operator : Operator} {value : FilterValue}
    (h : filter.comparison? = some (operator, value)) (text : String) :
    (filter.withText text).comparison? = some (operator, .string text) := by
  cases filter <;> cases h <;> rfl

/-! ## Literals -/

/-- There is no quote in the text of an instant. -/
theorem Instant.quoteText_text {t : Instant} (h : t.nanos < 10 ^ 9) :
    Sql.quoteText t.text = "'" ++ t.text ++ "'" := by
  have hquote : '\x27' ∉ t.text.toList := by
    intro hmem
    rcases isDigit_or_mem_of_mem_text h hmem with hdigit | hother
    · exact absurd hdigit (by decide)
    · exact absurd hother (by decide)
  rw [← String.toList_inj, Sql.quoteText, Sql.quoteChars, Sql.doubled_of_not_mem hquote]
  simp

theorem Predicate.text_timestamp (column : String) (operator : Operator) {t : Instant}
    (h : t.nanos < 10 ^ 9) :
    Predicate.text { column, operator, literal := .timestamp t } =
      Sql.quoteName column ++ " " ++ operator.symbol ++ " TIMESTAMP '" ++ t.text ++ "'" := by
  have hword : " TIMESTAMP '" = " " ++ ("TIMESTAMP " ++ "'") := by decide
  simp only [text, pieces, SqlLiteral.pieces, Sql.render, Sql.Piece.render, t.quoteText_text h,
    hword, String.append_assoc, String.append_empty]

/-! ## Predicates on dates -/

section

variable {filter : Filter} {operator : Operator} {value : FilterValue} {column s : String}

theorem predicate?_withText_eq_ok {t : Instant}
    (hcomparison : filter.comparison? = some (operator, value))
    (hread : readDate? (Text.trim s) = some t) :
    (filter.withText s).predicate? column .date =
      .ok (some { column, operator, literal := .timestamp t }) :=
  predicate?_eq_ok_iff.2 (.inr ⟨operator, .string s, .timestamp t,
    Filter.comparison?_withText hcomparison s,
    literalFor_eq_ok_iff.2 (.inr (.inr (.inr ⟨s, t, rfl, rfl, hread, rfl⟩))), rfl⟩)

theorem predicate?_withText_eq_error
    (hcomparison : filter.comparison? = some (operator, value))
    (hread : readDate? (Text.trim s) = none) :
    (filter.withText s).predicate? column .date =
      .error (.invalidValue column (.filterNotADate s)) := by
  have hliteral : literalFor column .date (.string s) =
      .error (.invalidValue column (.filterNotADate s)) := by
    unfold literalFor
    dsimp only
    rw [hread]
  simp only [Filter.predicate?, Filter.comparison?_withText hcomparison, hliteral]

/-- A predicate on a column of dates compares with the instant of the filter's text. -/
theorem predicate?_date_eq_some_iff {p : Predicate} :
    filter.predicate? column .date = .ok (some p) ↔
      ∃ s t, filter.comparison? = some (p.operator, .string s) ∧
        readDate? (Text.trim s) = some t ∧
        p = { column, operator := p.operator, literal := .timestamp t } := by
  rw [predicate?_eq_ok_iff]
  constructor
  · rintro (⟨-, hnone⟩ | ⟨operator, value, literal, hcomparison, hliteral, hp⟩)
    · cases hnone
    · cases hp
      rcases literalFor_eq_ok_iff.1 hliteral with
        ⟨_, -, htype, -⟩ | ⟨_, -, htype, -⟩ | ⟨_, -, htype, -⟩ | ⟨s, t, rfl, -, hread, rfl⟩
      · cases htype
      · cases htype
      · cases htype
      · exact ⟨s, t, hcomparison, hread, rfl⟩
  · rintro ⟨s, t, hcomparison, hread, hp⟩
    exact .inr ⟨p.operator, .string s, .timestamp t, hcomparison,
      literalFor_eq_ok_iff.2 (.inr (.inr (.inr ⟨s, t, rfl, rfl, hread, rfl⟩))), congrArg some hp⟩

end

/-- A filter on a column of dates is written with the instant that its text converts to, and every
text for the instant leads to the predicate. In a year of four digits the instant is written in the
fixed form, which converts to it and leads to the predicate again. Only an offset leads into
another year, the one before these or the one after; the text of such an instant does not have the
form, is no date, and as the text of a filter it is refused. -/
theorem Filter.predicate?_date_canonical {filter : Filter} {column : String} {p : Predicate}
    (h : filter.predicate? column .date = .ok (some p)) :
    ∃ (s : String) (t : Instant), filter.comparison? = some (p.operator, .string s) ∧
      Checker.date.convert (Text.trim s) = .ok (.date t) ∧
      p.text = Sql.quoteName column ++ " " ++ p.operator.symbol ++ " TIMESTAMP '" ++ t.text ++ "'" ∧
      (∀ s', Checker.date.convert (Text.trim s') = .ok (.date t) →
        (filter.withText s').predicate? column .date = .ok (some p)) ∧
      (t.HasPlainYear →
        DateText.IsTimestamp t.text.toList ∧ Checker.date.accepts t.text = true ∧
        Checker.date.convert t.text = .ok (.date t) ∧
        (filter.withText t.text).predicate? column .date = .ok (some p)) ∧
      (¬ t.HasPlainYear →
        (t.date.year = -1 ∨ t.date.year = 10000) ∧
        (∃ year month day time negative hours minutes,
          (DateText.iso year month day time (some (.offset negative hours minutes))).Spells
            (Text.trim s).toList) ∧
        ¬ DateText.IsTimestamp t.text.toList ∧ Checker.date.accepts t.text = false ∧
        (filter.withText t.text).predicate? column .date =
          .error (.invalidValue column (.filterNotADate t.text))) := by
  obtain ⟨s, t, hcomparison, hread, hp⟩ := predicate?_date_eq_some_iff.1 h
  have hnanos := nanos_lt_of_readDate? hread
  have hsame : ∀ s', readDate? (Text.trim s') = some t →
      (filter.withText s').predicate? column .date = .ok (some p) := by
    intro s' hs'
    rw [hp]
    exact predicate?_withText_eq_ok hcomparison hs'
  refine ⟨s, t, hcomparison, Checker.convert_eq_ok_date_iff.2 hread, ?_,
    fun s' hs' => hsame s' (Checker.convert_eq_ok_date_iff.1 hs'), fun hyear => ?_, fun hyear => ?_⟩
  · rw [hp]
    exact Predicate.text_timestamp column _ hnanos
  · have htext := Instant.readDate?_text hnanos hyear
    refine ⟨Instant.isTimestamp_text hnanos hyear, Checker.accepts_date_iff.2 ⟨t, htext⟩,
      Checker.convert_eq_ok_date_iff.2 htext, hsame _ ?_⟩
    rwa [Instant.trim_text hnanos]
  · have hnone := Instant.readDate?_text_eq_none hyear
    obtain ⟨hout, hoffset⟩ := year_of_readDate? hread hyear
    refine ⟨hout, hoffset, mt (Instant.isTimestamp_text_iff hnanos).1 hyear, ?_, ?_⟩
    · rw [← Bool.not_eq_true, Checker.accepts_date_iff, hnone]
      exact fun ⟨i, hi⟩ => nomatch hi
    · refine predicate?_withText_eq_error hcomparison ?_
      rwa [Instant.trim_text hnanos]

/-- A date two hours behind UTC on the last evening of January. -/
def januaryFilter : Filter :=
  .discard .lessThan (.string " 2024-01-31T23:30:15.25-02:00")

/-- The date of the filter is written as that of the first of February, and read so again. -/
theorem Filter.predicate?_date_canonical_january :
    ∃ p, januaryFilter.predicate? "at" .date = .ok (some p) ∧
      p.text = "\"at\" >= TIMESTAMP '2024-02-01 01:30:15.250'" ∧
      (januaryFilter.withText "2024-02-01 01:30:15.250").predicate? "at" .date = .ok (some p) := by
  have hpredicate : januaryFilter.predicate? "at" .date = .ok (some {
      column := "at"
      operator := .greaterThanEqual
      literal := .timestamp { seconds := 1706751015, nanos := 250000000 } }) := rfl
  obtain ⟨s, t, hcomparison, hconvert, htext, -, hplain, -⟩ :=
    Filter.predicate?_date_canonical hpredicate
  obtain rfl : s = " 2024-01-31T23:30:15.25-02:00" := by
    cases hcomparison
    rfl
  obtain rfl : t = { seconds := 1706751015, nanos := 250000000 } := by
    have h : Checker.date.convert (Text.trim " 2024-01-31T23:30:15.25-02:00") =
      .ok (.date { seconds := 1706751015, nanos := 250000000 }) := rfl
    cases h.symm.trans hconvert
    rfl
  have ht : Instant.text { seconds := 1706751015, nanos := 250000000 } =
    "2024-02-01 01:30:15.250" := by decide
  rw [ht] at htext hplain
  have hyear := Instant.hasPlainYear_iff (t := { seconds := 1706751015, nanos := 250000000 })
  exact ⟨_, hpredicate, htext.trans (by decide), (hplain (hyear.2 (by decide))).2.2.2⟩

/-- Half past eleven at night before the year ten thousand, an hour behind UTC. -/
theorem Filter.predicate?_date_canonical_year :
    (Filter.keep .equal (.string "9999-12-31T23:30-01:00")).predicate? "d" .date =
        .ok (some {
          column := "d"
          operator := .equal
          literal := .timestamp { seconds := 253402302600, nanos := 0 } }) ∧
      Instant.text { seconds := 253402302600, nanos := 0 } = "+10000-01-01 00:30:00" ∧
      ¬ DateText.IsTimestamp "+10000-01-01 00:30:00".toList ∧
      Checker.date.accepts "+10000-01-01 00:30:00" = false := by
  have htext : Instant.text { seconds := 253402302600, nanos := 0 } = "+10000-01-01 00:30:00" := by
    decide
  refine ⟨rfl, htext, ?_, by decide⟩
  rw [← htext, Instant.isTimestamp_text_iff (by decide), Instant.hasPlainYear_iff]
  decide

end TabularView
