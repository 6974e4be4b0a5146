import TabularView.Proofs.Batch.History

set_option autoImplicit false

/-! # Publishing again

Publishing may stop at any statement, as often as it likes. Each time the engine has executed the
statements before that one, and the view comes last; once all statements go through, the catalogue
is as if they had done so at the first try (`Ingestor.publish_retried`). The reason is that
statements that have been executed before make no difference to their later execution
(`Catalogue.executeAll_of_prefix`). -/

namespace TabularView

/-! ## Engines that stop -/

/-- An engine that executes so many statements and refuses all others. -/
def breaking {σ : Type} (execute : σ → String → σ) (f : Failure) :
    σ × Nat → String → Except Failure (σ × Nat)
  | (_, 0), _ => .error f
  | (state, left + 1), text => .ok (execute state text, left)

/-- An engine that refuses one of the statements has executed those before it. -/
theorem executeAll_breaking {σ : Type} (execute : σ → String → σ) (f : Failure) (state : σ)
    {count : Nat} {texts : List String} (h : count < texts.length) :
    executeAll (breaking execute f) (state, count) texts =
      (((texts.take count).foldl execute state, 0), some f) := by
  induction texts generalizing state count with
  | nil => cases h
  | cons text rest ih =>
      cases count with
      | zero => rfl
      | succ count => exact ih (execute state text) (Nat.lt_of_succ_lt_succ h)

/-- An attempt to publish: how many statements were executed, and the failure of the next. -/
structure Attempt where
  count : Nat
  failure : Failure

/-- The catalogue after an attempt to publish a result. -/
def BatchResult.attempt (r : BatchResult) (c : Catalogue) (a : Attempt) : Catalogue :=
  (r.publish (breaking Catalogue.execute a.failure) (c, a.count)).1.1

/-! ## Trying again -/

namespace Ingestor

variable {i : Ingestor} {uploads : List Upload} {prior : List TableStats} {r : Success}

/-- An engine that refuses a statement ends publishing with its failure. -/
theorem publish_breaking (h : i.Succeeds uploads prior r) {σ : Type} (execute : σ → String → σ)
    (state : σ) (f : Failure) {count : Nat} (hcount : count ≤ r.statements.length) :
    (i.resultOf r).publish (breaking execute f) (state, count) =
      ((((r.statements.map (·.text)).take count).foldl execute state, 0), .error f) := by
  have htake : (r.statements.map (·.text) ++ [r.view.statement]).take count =
      (r.statements.map (·.text)).take count :=
    List.take_append_of_le_length (by simpa using hcount)
  rw [publish_eq h, executeAll_breaking, htake]
  simpa using Nat.lt_succ_of_le hcount

theorem attempt_resultOf (h : i.Succeeds uploads prior r) (c : Catalogue) {a : Attempt}
    (ha : a.count ≤ r.statements.length) :
    (i.resultOf r).attempt c a = c.executeAll ((r.statements.map (·.text)).take a.count) := by
  rw [BatchResult.attempt, publish_breaking h _ _ _ ha]
  rfl

/-- A failed attempt leaves the views alone, and it makes no difference to a later success. -/
theorem publish_attempts (h : i.Succeeds uploads prior r) (c : Catalogue) (attempts : List Attempt)
    (hattempts : ∀ a ∈ attempts, a.count ≤ r.statements.length) :
    (attempts.foldl (i.resultOf r).attempt c).views = c.views ∧
      (i.resultOf r).publish Catalogue.engine (attempts.foldl (i.resultOf r).attempt c) =
        (i.resultOf r).publish Catalogue.engine c := by
  induction attempts generalizing c with
  | nil => exact ⟨rfl, rfl⟩
  | cons a rest ih =>
      obtain ⟨ha, hrest⟩ := List.forall_mem_cons.1 hattempts
      obtain ⟨hviews, hpublish⟩ := ih ((i.resultOf r).attempt c a) hrest
      rw [List.foldl_cons, hviews, hpublish, attempt_resultOf h c ha, publish_resultOf h,
        publish_resultOf h]
      refine ⟨?_, ?_⟩
      · rw [← List.map_take, Catalogue.views_executeAll_tableStatements]
      · rw [Catalogue.executeAll_of_prefix]
        exact (List.take_prefix ..).trans (List.prefix_append ..)

/-- Publishing a successful result can be tried again after any failures. An attempt that fails at a
statement has executed those before it, which are not the view's, and has left all views alone.
After any number of them, an attempt that goes through has the outcome of a single one. -/
theorem publish_retried (i : Ingestor) (cancelled : Bool) (uploads : List Upload)
    (prior : List TableStats) (h : (i.ingest cancelled uploads prior).status = .ok) :
    let result := i.ingest cancelled uploads prior
    ∃ view, result.viewStatement = some view ∧
      let statements := result.tableStatements ++ [view]
      (∀ {σ : Type} (execute : σ → String → σ) (state : σ) (f : Failure) (count : Nat),
        count < statements.length →
        result.publish (breaking execute f) (state, count) =
          (((statements.take count).foldl execute state, 0), .error f) ∧
        statements.take count = result.tableStatements.take count) ∧
      ∀ (c : Catalogue) (attempts : List Attempt), (∀ a ∈ attempts, a.count < statements.length) →
        (attempts.foldl result.attempt c).views = c.views ∧
        (result.publish Catalogue.engine c).1 = c.executeAll statements ∧
        result.publish Catalogue.engine (attempts.foldl result.attempt c) =
          result.publish Catalogue.engine c := by
  obtain ⟨r, hr, heq⟩ := exists_succeeds_of_status_eq_ok h
  rw [heq]
  intro result
  refine ⟨r.view.statement, rfl, ?_⟩
  have hlength : ∀ count, count < (result.tableStatements ++ [r.view.statement]).length →
      count ≤ r.statements.length := by
    intro count hcount
    simpa [result, resultOf, Nat.lt_succ_iff] using hcount
  intro statements
  refine ⟨fun execute state f count hcount => ?_, fun c attempts hattempts => ?_⟩
  · have htake : statements.take count = result.tableStatements.take count :=
      List.take_append_of_le_length (by simpa [result, resultOf] using hlength count hcount)
    rw [htake]
    exact ⟨publish_breaking hr execute state f (hlength count hcount), rfl⟩
  · obtain ⟨hviews, hpublish⟩ := publish_attempts hr c attempts
      fun a ha => hlength a.count (hattempts a ha)
    refine ⟨hviews, ?_, hpublish⟩
    show ((i.resultOf r).publish Catalogue.engine c).1 = _
    rw [publish_resultOf hr]
    rfl

/-- Publishing a replaced table stops once after it has been dropped, and once more before the
view. -/
theorem publish_retried_replacement :
    let result := plain.ingest false [.ofText "p.csv" "k\nx\n" .replace] [.ofNumbers "p" "k"]
    let lost : Failure := .inputOutput "connection lost"
    let attempts : List Attempt := [⟨1, lost⟩, ⟨2, lost⟩]
    (result.status = .ok ∧ result.tableStatements.length = 2) ∧
      (attempts.foldl result.attempt {}).views = (fun _ => none) ∧
      result.publish Catalogue.engine (attempts.foldl result.attempt {}) =
        result.publish Catalogue.engine {} := by
  intro result lost attempts
  have hok : result.status = .ok := by decide +kernel
  have hlength : result.tableStatements.length = 2 := by decide +kernel
  obtain ⟨view, -, -, hretried⟩ := publish_retried plain false _ _ hok
  have hcounts : ∀ a ∈ attempts, a.count < (result.tableStatements ++ [view]).length := by
    rw [List.length_append, hlength]
    simp [attempts]
  obtain ⟨hviews, -, hpublish⟩ := hretried {} attempts hcounts
  exact ⟨⟨hok, hlength⟩, hviews, hpublish⟩

end Ingestor

end TabularView
