import TabularView.Proofs.Batch.Standing

set_option autoImplicit false

/-! # Counts in 64 bits

Appending adds up rows and bytes. The sums here are of natural numbers; those of 64 bits are the
same while they fit (`TableStats.AtMost.eq_toNat_add`). They do if the tables at the start and all
files since then have less than 2 ^ 64 bytes together: a file has fewer rows than bytes, and in no
state of any batch has a table more of either than that (`Ingestor.atMost_applyAll`,
`Call.atMost_of_mem_results`). -/

namespace TabularView

/-! ## Rows of a file -/

namespace Csv

/-- Each record takes a byte that ends it, but for one that is open at the end. -/
theorem length_scanFrom_le (delimiter : UInt8) (position : Position) (fields : List Bytes)
    (field bytes : Bytes) :
    (scanFrom delimiter position fields field bytes).1.length +
        (scanFrom delimiter position fields field bytes).2.toList.length ≤
      bytes.length + if position = .recordStart then 0 else 1 := by
  induction bytes generalizing position fields field with
  | nil =>
      rw [scanFrom]
      split <;> simp
  | cons b rest ih =>
      rw [scanFrom, List.length_cons]
      -- only the last kind of move ends a record; the others leave at most the open one
      split
      · exact Nat.le_trans (ih _ _ _) (by split <;> omega)
      · exact Nat.le_trans (ih _ _ _) (by split <;> omega)
      · exact Nat.le_trans (ih _ _ _) (by split <;> omega)
      · have hrest := ih .recordStart [] []
        dsimp only at hrest ⊢
        rw [if_pos rfl] at hrest
        rw [List.length_cons]
        omega

theorem length_afterMark?_le {bytes rest : Bytes} (h : afterMark? bytes = some rest) :
    rest.length ≤ bytes.length := by
  unfold afterMark? at h
  split at h
  · obtain rfl := Option.some.inj h
    simp only [List.length_cons]
    omega
  · cases h

/-- A stream has no more records than bytes. -/
theorem length_records_read_le (delimiter : UInt8) (stream : ByteStream) :
    (read delimiter stream).records.length ≤ stream.bytes.length := by
  have hscan : ∀ bytes : Bytes, (scan delimiter bytes).1.length +
      (scan delimiter bytes).2.toList.length ≤ bytes.length :=
    length_scanFrom_le delimiter .recordStart [] []
  rw [read]
  split
  next bytes failure hfound =>
  have hbytes : bytes.length ≤ stream.bytes.length := by
    split at hfound
    · cases hfound
      exact Nat.zero_le _
    · next hrest =>
        cases hfound
        exact length_afterMark?_le hrest
    · cases hfound
      exact Nat.le_refl _
  have hrecords := Nat.le_trans (hscan bytes) hbytes
  dsimp only
  split
  · rw [List.length_append]
    exact hrecords
  · exact Nat.le_trans (Nat.le_add_right ..) hrecords

end Csv

/-! ## Tables -/

namespace TableStats

/-- Rows and bytes of the table are no more than a count. -/
structure AtMost (count : Nat) (t : TableStats) : Prop where
  rows : t.numberOfRows ≤ count
  size : t.fileSize ≤ count

variable {existing incoming merged t : TableStats} {m n : Nat}

theorem AtMost.mono (h : t.AtMost m) (hle : m ≤ n) : t.AtMost n where
  rows := Nat.le_trans h.rows hle
  size := Nat.le_trans h.size hle

theorem AtMost.append (hexisting : existing.AtMost m) (hincoming : incoming.AtMost n)
    (h : existing.append incoming = .ok merged) : merged.AtMost (m + n) := by
  obtain ⟨-, -, columns, -, rfl⟩ := append_eq_ok_iff.1 h
  exact ⟨Nat.add_le_add hexisting.rows hincoming.rows,
    Nat.add_le_add hexisting.size hincoming.size⟩

/-- Rows and bytes are those that adding in 64 bits gives, as long as these can hold them. -/
theorem AtMost.eq_toNat_add (hmerged : merged.AtMost n) (hn : n < 2 ^ 64)
    (h : existing.append incoming = .ok merged) :
    merged.numberOfRows =
        (UInt64.ofNat existing.numberOfRows + UInt64.ofNat incoming.numberOfRows).toNat ∧
      merged.fileSize =
        (UInt64.ofNat existing.fileSize + UInt64.ofNat incoming.fileSize).toNat := by
  obtain ⟨hrows, hsize⟩ := hmerged
  obtain ⟨-, -, columns, -, rfl⟩ := append_eq_ok_iff.1 h
  rw [← UInt64.ofNat_add, ← UInt64.ofNat_add]
  exact ⟨(UInt64.toNat_ofNat_of_lt' (Nat.lt_of_le_of_lt hrows hn)).symm,
    (UInt64.toNat_ofNat_of_lt' (Nat.lt_of_le_of_lt hsize hn)).symm⟩

end TableStats

/-- A table read from a stream has at most its bytes. -/
theorem TableReader.atMost_of_read_eq_ok {r : TableReader} {stream : ByteStream}
    {report : TableReport} (h : r.read stream = .ok report) :
    report.stats.AtMost stream.bytes.length := by
  obtain ⟨header, headers, hread, -, rfl⟩ := r.exists_of_read_eq_ok h
  have hrecords := Csv.length_records_read_le (PathName.delimiter r.fileName r.delimiter) stream
  rw [hread, List.length_cons] at hrecords
  exact ⟨Nat.le_of_succ_le hrecords, Nat.le_refl _⟩

/-! ## Batches -/

/-- The bytes of all files. -/
def Upload.totalBytes (uploads : List Upload) : Nat :=
  (uploads.map (·.stream.bytes.length)).sum

namespace BatchState

variable {s : BatchState} {count : Nat}

/-- No table has more rows or bytes than a count. -/
def AtMost (count : Nat) (s : BatchState) : Prop :=
  s.All fun _ t => t.AtMost count

/-- A file adds its own bytes to the count, whatever is done with it. -/
theorem AtMost.apply (h : s.AtMost count) {u : Upload} {loaded : Loaded} {bytes : Nat}
    (hloaded : u.operation ≠ .delete → (loaded.stats u).AtMost bytes) :
    (s.apply u loaded).AtMost (count + bytes) := by
  have hkept : s.AtMost (count + bytes) := fun name t ht => (h name t ht).mono (Nat.le_add_right ..)
  cases ho : s.operate u.targetTable u.operation (loaded.stats u) with
  | error f =>
      rw [apply_of_operate_eq_error ho]
      exact hkept
  | ok after =>
      rw [apply_of_operate_eq_ok ho]
      show after.AtMost (count + bytes)
      refine All.operate_of h (fun _ t ht => ht.mono (Nat.le_add_right ..)) ?_ ?_ ho
      · exact fun hne => (hloaded hne).mono (Nat.le_add_left ..)
      · intro hoperation existing merged hexisting hmerged
        exact hexisting.append (hloaded (by simp [hoperation])) hmerged

end BatchState

namespace Ingestor

variable {i : Ingestor}

theorem atMost_stats_of_load {u : Upload} {loaded : Loaded} (h : i.load u = .ok loaded)
    (hne : u.operation ≠ .delete) : (loaded.stats u).AtMost u.stream.bytes.length := by
  rcases load_eq_ok_iff.1 h with ⟨hdelete, _⟩ | ⟨_, report, hread, rfl⟩
  · exact absurd hdelete hne
  · exact TableReader.atMost_of_read_eq_ok hread

/-- All along a batch, no table has more rows or bytes than the tables before it had and the files
so far have together. -/
theorem atMost_applyAll {s : BatchState} {count : Nat} (h : s.AtMost count) (us : List Upload) :
    (i.applyAll s us).1.AtMost (count + Upload.totalBytes us) := by
  -- the count grows from file to file, by the bytes of each
  induction us generalizing s count with
  | nil => exact h
  | cons u rest ih =>
      rw [applyAll, Upload.totalBytes, List.map_cons, List.sum_cons, ← Nat.add_assoc]
      cases hload : i.load u with
      | error f => exact fun name t ht => (h name t ht).mono (by omega)
      | ok loaded => exact ih (h.apply (atMost_stats_of_load hload))

theorem atMost_ingest (i : Ingestor) (cancelled : Bool) (uploads : List Upload)
    {prior : List TableStats} {count : Nat} (h : ∀ t ∈ prior, t.AtMost count) :
    ∀ t ∈ (i.ingest cancelled uploads prior).fileInformation,
      t.AtMost (count + Upload.totalBytes uploads) := by
  rcases i.ingest_cases cancelled uploads prior with ⟨_, r, hr, heq⟩ | ⟨_, _, _, heq⟩
  · have hstart : (BatchState.start prior).AtMost count :=
      fun name t ht => h t (TableMap.mem_of_find?_ofTables ht).1
    have hall := i.atMost_applyAll hstart (Upload.sort uploads)
    have hbytes : Upload.totalBytes (Upload.sort uploads) = Upload.totalBytes uploads :=
      ((Upload.perm_sort uploads).map _).sum_nat
    rw [hr.applied, hbytes] at hall
    rw [heq, hr.fileInformation_eq]
    exact fun t ht => BatchState.All.of_mem hall hr.tracks.wellFormed ht
  · rw [heq]
    exact fun t ht => (h t ht).mono (Nat.le_add_right ..)

end Ingestor

/-- However many batches there are, no table has more rows or bytes than the tables at the start had
and all files have together. -/
theorem Call.atMost_of_mem_results {calls : List Call} {prior : List TableStats} {count : Nat}
    (hprior : ∀ t ∈ prior, t.AtMost count) {result : BatchResult}
    (h : result ∈ Call.results prior calls) :
    ∀ t ∈ result.fileInformation,
      t.AtMost (count + (calls.map fun c => Upload.totalBytes c.uploads).sum) := by
  induction calls generalizing prior count with
  | nil => cases h
  | cons c rest ih =>
      have hfirst : ∀ t ∈ (c.result prior).fileInformation,
          t.AtMost (count + Upload.totalBytes c.uploads) :=
        c.ingestor.atMost_ingest c.cancelled c.uploads hprior
      rw [List.map_cons, List.sum_cons, ← Nat.add_assoc]
      rcases List.mem_cons.1 h with rfl | h
      · exact fun t ht => (hfirst t ht).mono (Nat.le_add_right ..)
      · exact ih hfirst h

end TabularView
