import Mathlib.Data.List.Nodup
import TabularView.Proofs.Fallible
import TabularView.View.Plan

set_option autoImplicit false

/-! # When a view can be planned

Joining goes on as long as a remaining table shares a key with the joined ones, so it stops early
only at tables that share none (`joinRemaining_eq_error`). Tables of which no part is cut off from
the rest (`Linked`) are therefore all joined. A view over them exists if their names differ and the
first one has something to show (`exists_planView_eq_ok`). -/

namespace TabularView

/-! ## Picking the next table -/

section Extract

variable {α : Type} {p : α → Bool} {l others : List α} {a : α}

theorem extractFirst?_eq_some (h : extractFirst? p l = some (a, others)) :
    p a = true ∧ l.Perm (a :: others) := by
  induction l generalizing others with
  | nil => cases h
  | cons b rest ih =>
      rw [extractFirst?] at h
      split at h
      · next hb =>
          obtain ⟨rfl, rfl⟩ := Prod.mk.inj (Option.some.inj h)
          exact ⟨hb, .refl _⟩
      · obtain ⟨⟨c, more⟩, hc, he⟩ := Option.map_eq_some_iff.1 h
        obtain ⟨rfl, rfl⟩ := Prod.mk.inj he
        obtain ⟨hp, hperm⟩ := ih hc
        exact ⟨hp, (hperm.cons b).trans (.swap ..)⟩

theorem extractFirst?_eq_none (h : extractFirst? p l = none) : ∀ b ∈ l, p b = false := by
  induction l with
  | nil => simp
  | cons b rest ih =>
      rw [extractFirst?] at h
      split at h
      · cases h
      · next hb =>
          rw [List.forall_mem_cons]
          exact ⟨by simpa using hb, ih (Option.map_eq_none_iff.1 h)⟩

end Extract

/-! ## Joining as far as it goes -/

theorem sharesKey_eq_false_iff {names : List String} {t : JoinTable} :
    t.sharesKey names = false ↔ ∀ name ∈ t.keyNames, name ∉ names := by
  simp [JoinTable.sharesKey]

/-- Tables are left over only when none of them shares a key with those joined. -/
theorem joinRemaining_eq_error {names : List String} {remaining stuck : List JoinTable}
    (h : joinRemaining names remaining = .error stuck) :
    stuck ≠ [] ∧ ∃ order, remaining.Perm (order ++ stuck) ∧
      ∀ t ∈ stuck, ∀ name ∈ t.keyNames, name ∉ names ∧ ∀ u ∈ order, name ∉ u.keyNames := by
  fun_induction joinRemaining names remaining generalizing stuck with
  | case1 => cases h
  | case2 names remaining next others hextract _ stuck' hstuck ih =>
      cases h
      -- what shares no key after this table has been joined shares none with it either
      obtain ⟨hne, order, hperm, hapart⟩ := ih hstuck
      refine ⟨hne, next :: order, (extractFirst?_eq_some hextract).2.trans (hperm.cons next), ?_⟩
      intro t ht name hname
      obtain ⟨hnames, horder⟩ := hapart t ht name hname
      rw [List.mem_append, not_or] at hnames
      exact ⟨hnames.2, List.forall_mem_cons.2 ⟨hnames.1, horder⟩⟩
  | case3 => cases h
  | case4 names remaining hextract hne =>
      cases h
      refine ⟨by simpa using hne, [], .refl _, fun t ht name hname => ?_⟩
      have hshares := extractFirst?_eq_none hextract t ht
      exact ⟨sharesKey_eq_false_iff.1 hshares name hname, by simp⟩

/-- Each table shares a key with the names given or with a table before it. -/
def SharesInTurn (names : List String) : List JoinTable → Prop
  | [] => True
  | t :: rest => (∃ name ∈ t.keyNames, name ∈ names) ∧ SharesInTurn (t.keyNames ++ names) rest

theorem sharesKey_iff {names : List String} {t : JoinTable} :
    t.sharesKey names = true ↔ ∃ name ∈ t.keyNames, name ∈ names := by
  simp [JoinTable.sharesKey]

/-- If no table is left over, each has been joined when it shared a key with those before it. -/
theorem joinRemaining_eq_ok {names : List String} {remaining order : List JoinTable}
    (h : joinRemaining names remaining = .ok order) :
    remaining.Perm order ∧ SharesInTurn names order := by
  fun_induction joinRemaining names remaining generalizing order with
  | case1 names remaining next others hextract _ order' horder ih =>
      cases h
      obtain ⟨hshares, hperm⟩ := extractFirst?_eq_some hextract
      obtain ⟨hothers, hturn⟩ := ih horder
      exact ⟨hperm.trans (hothers.cons next), sharesKey_iff.1 hshares, hturn⟩
  | case2 => cases h
  | case3 names remaining _ hnone =>
      cases h
      rw [List.isEmpty_iff.1 hnone]
      exact ⟨.refl _, trivial⟩
  | case4 => cases h

theorem joinOrder_eq_ok {first : JoinTable} {rest order : List JoinTable}
    (h : joinOrder first rest = .ok order) :
    rest.Perm order ∧ SharesInTurn first.keyNames order := by
  rw [joinOrder] at h
  cases hjoin : joinRemaining first.keyNames rest with
  | ok order' =>
      rw [hjoin] at h
      obtain rfl := Except.ok.inj h
      exact joinRemaining_eq_ok hjoin
  | error stuck =>
      rw [hjoin] at h
      cases h

/-- No part of the tables is without a key in common with the rest. -/
def Linked (tables : List JoinTable) : Prop :=
  ∀ inside outside, tables.Perm (inside ++ outside) → inside ≠ [] → outside ≠ [] →
    ∃ t ∈ inside, ∃ u ∈ outside, ∃ name ∈ t.keyNames, name ∈ u.keyNames

/-- Linked tables are all joined. -/
theorem exists_joinOrder_eq_ok {first : JoinTable} {rest : List JoinTable}
    (h : Linked (first :: rest)) : ∃ order, joinOrder first rest = .ok order := by
  rw [joinOrder]
  cases hjoin : joinRemaining first.keyNames rest with
  | ok order => exact ⟨order, rfl⟩
  | error stuck =>
      obtain ⟨hne, order, hperm, hapart⟩ := joinRemaining_eq_error hjoin
      obtain ⟨t, ht, u, hu, name, hname, hname'⟩ :=
        h (first :: order) stuck (hperm.cons first) (by simp) hne
      obtain ⟨hfirst, horder⟩ := hapart u hu name hname'
      rcases List.mem_cons.1 ht with rfl | ht
      · exact absurd hname hfirst
      · exact absurd hname (horder t ht)

theorem Linked.perm {tables tables' : List JoinTable} (h : Linked tables)
    (hperm : tables.Perm tables') : Linked tables' :=
  fun inside outside hsplit => h inside outside (hperm.trans hsplit)

theorem repeatedTable?_eq_none_iff {seen : List String} {tables : List JoinTable} :
    repeatedTable? seen tables = none ↔
      (tables.map (·.tableName)).Nodup ∧ ∀ t ∈ tables, t.tableName ∉ seen := by
  induction tables generalizing seen with
  | nil => simp [repeatedTable?]
  | cons t rest ih =>
      rw [repeatedTable?]
      by_cases hseen : t.tableName ∈ seen
      · simp [hseen]
      · have hcontains : seen.contains t.tableName = false := by simpa using hseen
        rw [hcontains, if_neg (by simp), ih, List.map_cons, List.nodup_cons, List.forall_mem_cons]
        simp only [List.mem_cons, not_or, List.mem_map]
        grind

/-! ## Something to show -/

theorem holdKey_ne_nil (table : String) (column : JoinColumn) (keys : List ViewKey) :
    (holdKey table column keys).1 ≠ [] := by
  cases keys with
  | nil => simp [holdKey]
  | cons k rest =>
      rw [holdKey]
      split <;> simp

theorem holdKeys_ne_nil {table : String} {columns : List JoinColumn} {keys : List ViewKey}
    (h : columns ≠ [] ∨ keys ≠ []) : (holdKeys table columns keys).1 ≠ [] := by
  induction columns generalizing keys with
  | nil => simpa [holdKeys] using h
  | cons column rest ih =>
      rw [holdKeys]
      exact ih (Or.inr (holdKey_ne_nil table column keys))

theorem joinSources_ne_nil {tables : List JoinTable} {keys : List ViewKey} (h : keys ≠ []) :
    (joinSources tables keys).1 ≠ [] := by
  induction tables generalizing keys with
  | nil => exact h
  | cons t rest ih =>
      rw [joinSources]
      exact ih (holdKeys_ne_nil (Or.inr h))

theorem nameProjections_ne_nil {projections : List Projection} (h : projections ≠ []) :
    nameProjections projections ≠ [] := by
  rw [← List.length_pos_iff] at h ⊢
  simpa [nameProjections, Text.length_freshen] using h

/-- A view whose first table has a key or a selected column shows something. -/
theorem projections_viewOver_ne_nil (kind : JoinKind) (name : String) {first : JoinTable}
    (order : List JoinTable) (h : first.joinColumns ≠ [] ∨ first.selectedColumns ≠ []) :
    (viewOver kind name first order).projections ≠ [] := by
  rw [viewOver]
  refine nameProjections_ne_nil ?_
  rcases h with hjoin | hselected
  · have hkeys : (joinSources order (holdKeys first.tableName first.joinColumns []).1).1 ≠ [] :=
      joinSources_ne_nil (holdKeys_ne_nil (Or.inl hjoin))
    exact List.append_ne_nil_of_left_ne_nil (by simpa using hkeys) _
  · have hfirst : tableProjections first ≠ [] := by
      rw [← List.length_pos_iff] at hselected ⊢
      simpa [tableProjections, sortByIndex] using hselected
    rw [List.flatMap_cons]
    exact List.append_ne_nil_of_right_ne_nil _ (List.append_ne_nil_of_left_ne_nil hfirst _)

/-- A view is over tables of different names in the order in which they can be joined. -/
theorem planView_eq_ok {kind : JoinKind} {name : String} {tables : List JoinTable}
    {view : ViewPlan} (h : planView kind name tables = .ok view) :
    ∃ first rest order, tables = first :: rest ∧ (tables.map (·.tableName)).Nodup ∧
      joinOrder first rest = .ok order ∧ view = viewOver kind name first order := by
  cases tables with
  | nil => cases h
  | cons first rest =>
      rw [planView] at h
      split at h
      · cases h
      · next hrepeated =>
          obtain ⟨order, horder, h⟩ := bind_eq_ok_iff.1 h
          dsimp only at h
          split at h
          · cases h
          · exact ⟨first, rest, order, rfl, (repeatedTable?_eq_none_iff.1 hrepeated).1, horder,
              (Except.ok.inj h).symm⟩

/-- A view cannot be planned over tables that cannot be joined, or if it would show nothing. -/
theorem cases_of_planView_eq_error {kind : JoinKind} {name : String} {tables : List JoinTable}
    {f : Failure} (h : planView kind name tables = .error f) :
    (∃ fault, f = .tableSet fault) ∨ f = .unexpected (.emptyProjection name) := by
  cases tables with
  | nil => exact Or.inl ⟨_, (Except.error.inj h).symm⟩
  | cons first rest =>
      rw [planView] at h
      split at h
      · exact Or.inl ⟨_, (Except.error.inj h).symm⟩
      · rcases bind_eq_error_iff.1 h with horder | ⟨order, -, h⟩
        · rw [joinOrder] at horder
          split at horder
          · cases horder
          · exact Or.inl ⟨_, (Except.error.inj horder).symm⟩
        · dsimp only at h
          split at h
          · exact Or.inr (Except.error.inj h).symm
          · cases h

/-- What is defined is the definition of the view that is planned. -/
theorem define_eq_ok {p : ViewPlanner} {name : String} {tables : List JoinTable}
    {definition : ViewDefinition} (h : (p.define name tables).1 = .ok definition) :
    ∃ view, planView p.kind name tables = .ok view ∧ definition = view.definition := by
  rw [ViewPlanner.define] at h
  split at h
  · next view hview => exact ⟨view, hview, (Except.ok.inj h).symm⟩
  · cases h

/-- Linked tables of different names have a view, if the first has something to show. -/
theorem exists_planView_eq_ok (kind : JoinKind) (name : String) {first : JoinTable}
    {rest : List JoinTable} (hnames : ((first :: rest).map (·.tableName)).Nodup)
    (hlinked : Linked (first :: rest))
    (hshown : first.joinColumns ≠ [] ∨ first.selectedColumns ≠ []) :
    ∃ view, planView kind name (first :: rest) = .ok view := by
  have hrepeated : repeatedTable? [] (first :: rest) = none :=
    repeatedTable?_eq_none_iff.2 ⟨hnames, by simp⟩
  obtain ⟨order, horder⟩ := exists_joinOrder_eq_ok hlinked
  have hprojections := projections_viewOver_ne_nil kind name order hshown
  refine ⟨viewOver kind name first order, ?_⟩
  rw [planView, hrepeated]
  refine bind_eq_ok_iff.2 ⟨order, horder, ?_⟩
  dsimp only
  rw [if_neg (by simpa using hprojections)]

end TabularView
