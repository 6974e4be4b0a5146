import TabularView.Proofs.Batch.Planning
import TabularView.Proofs.Batch.TableMap

set_option autoImplicit false

/-! # The order of arrival

The files of a batch are sorted before they are applied, so the order in which they arrive does not
matter, as long as files that are sorted alike keep their order among each other
(`Upload.Rearranged`): such batches have the same result, failed ones included. Nor does the order
of the tables there are, if the batch succeeds. -/

namespace TabularView

/-! ## Rearranged uploads -/

theorem FileOperation.rank_injective {a b : FileOperation} (h : a.rank = b.rank) : a = b := by
  cases a <;> cases b <;> simp_all [rank]

namespace Upload

/-- Files for one table, of one name and with one operation; sorting leaves them as they arrived. -/
def sameKey (u v : Upload) : Bool :=
  u.targetTable == v.targetTable && u.fileName == v.fileName && u.operation == v.operation

/-- The same files in another order of arrival, those of one key in the same order. -/
def Rearranged (us vs : List Upload) : Prop :=
  us.Perm vs ∧ ∀ u ∈ us, us.filter u.sameKey = vs.filter u.sameKey

instance (us vs : List Upload) : Decidable (Rearranged us vs) :=
  inferInstanceAs <| Decidable (_ ∧ _)

instance : Std.TransCmp Upload.compare :=
  inferInstanceAs <| Std.TransCmp <| compareLex (compareOn targetTable) <|
    compareLex (compareOn fileName) (compareOn (·.operation.rank))

theorem compare_eq_eq_iff (u v : Upload) : u.compare v = .eq ↔ u.sameKey v = true := by
  simp only [compare, Ordering.then_eq_eq, sameKey, Bool.and_eq_true, beq_iff_eq, and_assoc]
  refine and_congr Std.LawfulEqCmp.compare_eq_iff_eq
    (and_congr Std.LawfulEqCmp.compare_eq_iff_eq ?_)
  rw [Std.LawfulEqCmp.compare_eq_iff_eq]
  exact ⟨FileOperation.rank_injective, fun h => by rw [h]⟩

theorem classOf_compare (u : Upload) (us : List Upload) :
    Sorting.classOf compare u us = us.filter u.sameKey := by
  refine List.filter_congr fun v _ => ?_
  rw [Bool.eq_iff_iff, beq_iff_eq, compare_eq_eq_iff]

/-- A key that no file has picks nothing from the files, however they are arranged. -/
theorem filter_sameKey_eq {us vs : List Upload} (h : Rearranged us vs) (u : Upload) :
    us.filter u.sameKey = vs.filter u.sameKey := by
  by_cases hu : ∃ v ∈ us, u.sameKey v = true
  · -- the key is that of a file of the batch
    obtain ⟨v, hv, huv⟩ := hu
    have hkey : u.sameKey = v.sameKey := by
      simp only [sameKey, Bool.and_eq_true, beq_iff_eq] at huv
      funext w
      rw [sameKey, sameKey, huv.1.1, huv.1.2, huv.2]
    rw [hkey]
    exact h.2 v hv
  · have hus : us.filter u.sameKey = [] :=
      List.filter_eq_nil_iff.2 fun w hw huw => hu ⟨w, hw, huw⟩
    have hvs : vs.filter u.sameKey = [] :=
      List.filter_eq_nil_iff.2 fun w hw huw => hu ⟨w, h.1.mem_iff.2 hw, huw⟩
    rw [hus, hvs]

theorem sort_eq_of_rearranged {us vs : List Upload} (h : Rearranged us vs) : sort us = sort vs := by
  refine Sorting.sortBy_eq_of_classes fun u => ?_
  rw [classOf_compare, classOf_compare, filter_sameKey_eq h u]

end Upload

/-! ## Results -/

namespace Ingestor

theorem label_eq_of_perm {us vs : List Upload} (h : us.Perm vs) : label us = label vs := by
  have hnames : Sorting.sortBy Ord.compare (us.map (·.fileName)) =
      Sorting.sortBy Ord.compare (vs.map (·.fileName)) :=
    Sorting.sortBy_eq_of_perm (h.map _)
  exact congrArg (Text.joinWith ", ") hnames

/-- The stages of a successful batch do not depend on the order of the tables there were. -/
theorem Succeeds.of_perm {i : Ingestor} {uploads : List Upload} {prior prior' : List TableStats}
    {r : Success} (h : i.Succeeds uploads prior r) (hnames : (prior.map (·.tableName)).Nodup)
    (hperm : prior.Perm prior') : i.Succeeds uploads prior' r := by
  have hstart : BatchState.start prior = BatchState.start prior' := by
    rw [BatchState.start, BatchState.start, TableMap.ofTables_eq_of_perm hnames hperm]
  exact { h with applied := hstart ▸ h.applied }

theorem ingest_eq_of_rearranged (i : Ingestor) (cancelled : Bool) {us vs : List Upload}
    (prior : List TableStats) (h : Upload.Rearranged us vs) :
    i.ingest cancelled us prior = i.ingest cancelled vs prior ∧
      ∀ prior' : List TableStats, (prior.map (·.tableName)).Nodup → prior.Perm prior' →
        (i.ingest cancelled us prior).isOk = true →
        i.ingest cancelled us prior' = i.ingest cancelled us prior := by
  constructor
  · rw [ingest, ingest, Upload.sort_eq_of_rearranged h, label_eq_of_perm h.1]
  · intro prior' hnames hperm hok
    obtain ⟨rfl, r, hr⟩ := (i.isOk_ingest_iff _ _ _).1 hok
    rw [ingest_eq_of_succeeds hr, ingest_eq_of_succeeds (hr.of_perm hnames hperm)]

/-- Two appends of one file name around a deletion: the deletion may come first, and the two tables
there are may be given in either order. -/
theorem ingest_appends_around_deletion :
    let first : Upload := .ofText "b.csv" "k\n1\n" .append (some "q")
    let second : Upload := .ofText "b.csv" "k\n2\n3\n" .append (some "q")
    let us : List Upload := [first, .deletion "p.csv", second]
    let vs : List Upload := [.deletion "p.csv", first, second]
    let prior : List TableStats := [.ofNumbers "q" "k", .ofNumbers "p" "k"]
    Upload.Rearranged us vs ∧
      plain.ingest false us prior = plain.ingest false vs prior ∧
      plain.ingest false us prior.reverse = plain.ingest false us prior := by
  intro first second us vs prior
  have hr : Upload.Rearranged us vs := by decide
  obtain ⟨huploads, hprior⟩ := ingest_eq_of_rearranged plain false prior hr
  have hsorted : vs.Pairwise fun u v => (u.compare v).isLE = true := by decide +kernel
  have hsort : Upload.sort us = vs :=
    (Upload.sort_eq_of_rearranged hr).trans (List.mergeSort_of_pairwise hsorted)
  have hok : (plain.ingest false us prior).isOk = true := by
    rw [ingest, hsort]
    decide +kernel
  exact ⟨hr, huploads, hprior prior.reverse (by decide) (by decide) hok⟩

end Ingestor

end TabularView
