import Eamerald.Directory.RowKinds

/-! What a backend is to the services: a table of objects and a table of relations,
each with one row under every key. The backends satisfy the laws in all states that
a transaction can lead to, and what is proved from them holds for both. -/

set_option autoImplicit false

namespace Eamerald.Directory

open Foundation Store

/-- A part of some data that is a map, and can be replaced by another. -/
structure Part (Δ κ R : Type) where
  get : Δ → κ → Option R
  set : Δ → (κ → Option R) → Δ
  get_set : ∀ data rows, get (set data rows) = rows
  set_get : ∀ data, set data (get data) = data
  set_set : ∀ data rows others, set (set data rows) others = set data others

attribute [simp] Part.get_set Part.set_get Part.set_set

/-- The rows of a kind in the states of a backend. Writing a row whose key the backend
does not take fails; nothing else does. -/
structure Table {μ σ R I Δ κ : Type} [DecidableEq κ] (backend : Backend μ σ) (kind : RowKind μ R I)
    (scan : TxOp μ (Iterator R)) (sound : σ → Prop) (data : σ → Δ) (part : Part Δ κ R) where
  key : I → κ
  fits : I → Prop
  missing : Err
  missing_isNotFound : missing.isNotFound = true
  keyed : ∀ {state place row}, sound state → part.get (data state) place = some row →
    key (kind.ident row) = place
  reads : ∀ ident state, (backend.exec (kind.read ident) state).2 = state
  read : ∀ {state}, sound state → ∀ ident, backend.exec (kind.read ident) state =
    ((part.get (data state) (key ident)).elim (.error missing) .ok, state)
  write : ∀ {state row}, sound state → fits (kind.ident row) →
    ∃ after, backend.exec (kind.write row) state = (.ok row, after) ∧ sound after ∧
      data after = part.set (data state)
        (Function.update (part.get (data state)) (key (kind.ident row)) (some row))
  refuse : ∀ {state row}, sound state → ¬ fits (kind.ident row) →
    ∃ error, backend.exec (kind.write row) state = (.error error, state)
  remove : ∀ {state}, sound state → ∀ ident,
    ∃ after, backend.exec (kind.remove ident) state = (.ok (), after) ∧ sound after ∧
      data after = part.set (data state) (Function.update (part.get (data state)) (key ident) none)
  scans : ∀ {state}, sound state →
    ∃ iterator, backend.exec scan state = (.ok iterator, state) ∧ iterator.closeError = none ∧
      (iterator.values.map fun row => key (kind.ident row)).Nodup ∧
      ∀ row, row ∈ iterator.values ↔ part.get (data state) (key (kind.ident row)) = some row

/-- The tag of what is stored, or the own tag if that has none, is the hash of the content. -/
def RowKind.Tagged {μ R I : Type} (kind : RowKind μ R I) (row old : R) : Prop :=
  kind.etag old = kind.hash row ∨ kind.etag old = [] ∧ kind.etag row = kind.hash row

namespace Table

variable {μ σ R I Δ κ : Type} [DecidableEq κ] {backend : Backend μ σ} {kind : RowKind μ R I}
  {scan : TxOp μ (Iterator R)} {sound : σ → Prop} {data : σ → Δ} {part : Part Δ κ R}
  (table : Table backend kind scan sound data part) {state : σ}

include table

section Storing

variable (now : Timestamp) {row : R}

theorem tagged_of_updated (holds : sound state) (hashed : kind.hash row ≠ []) {current : R}
    (updated : kind.updated now row (backend.exec (kind.read (kind.ident row)) state).1 = .ok current)
    (same : kind.etag current = kind.hash row) :
    ∃ old, part.get (data state) (table.key (kind.ident row)) = some old ∧ kind.Tagged row old := by
  rw [table.read holds] at updated
  cases found : part.get (data state) (table.key (kind.ident row)) with
  | none =>
      simp only [found, Option.elim, RowKind.updated, table.missing_isNotFound, ↓reduceIte] at updated
      cases updated
      exact absurd ((kind.etag_restamp ..).symm.trans same).symm hashed
  | some old =>
      simp only [found, Option.elim, RowKind.updated] at updated
      cases updated
      rw [kind.etag_restamp] at same
      refine ⟨old, rfl, ?_⟩
      split at same
      · exact .inl same
      · rename_i untagged
        exact .inr ⟨not_not.mp untagged, same⟩

/-- Storing a row: it is taken to be there, or written with its hash as tag, or the
backend does not take it. -/
theorem run_store (holds : sound state) (hashed : kind.hash row ≠ []) :
    (∃ old, part.get (data state) (table.key (kind.ident row)) = some old ∧
        kind.Tagged row old ∧ (kind.store now row).run backend state = (.ok ⟨⟩, state)) ∨
      (table.fits (kind.ident row) ∧ ∃ new after, kind.content new = kind.content row ∧
        kind.etag new = kind.hash row ∧ (kind.store now row).run backend state = (.ok ⟨⟩, after) ∧ sound after ∧
        data after = part.set (data state)
          (Function.update (part.get (data state)) (table.key (kind.ident row)) (some new))) ∨
      (¬ table.fits (kind.ident row) ∧
        (kind.store now row).run backend state = (.error kind.setError, state)) := by
  rcases RowKind.store_cases table.reads now row state with
    ⟨error, failed, unexpected, _⟩ | ⟨current, updated, same, ran⟩ | ⟨new, content, tag, _, ran⟩
  · rw [table.read holds] at failed
    cases found : part.get (data state) (table.key (kind.ident row)) with
    | none =>
        rw [found] at failed
        cases failed
        rw [table.missing_isNotFound] at unexpected
        cases unexpected
    | some old =>
        rw [found] at failed
        cases failed
  · obtain ⟨old, found, tagged⟩ := table.tagged_of_updated now holds hashed updated same
    exact .inl ⟨old, found, tagged, ran⟩
  · have ident := kind.ident_eq_of_content content
    by_cases fits : table.fits (kind.ident row)
    · obtain ⟨after, written, kept, changed⟩ := table.write holds (ident ▸ fits)
      rw [written] at ran
      rw [ident] at changed
      exact .inr (.inl ⟨fits, new, after, content, tag, ran, kept, changed⟩)
    · obtain ⟨error, refused⟩ := table.refuse holds (ident ▸ fits)
      rw [refused] at ran
      exact .inr (.inr ⟨fits, ran⟩)

theorem run_store_of_tagged (holds : sound state) (hashed : kind.hash row ≠ []) {old : R}
    (found : part.get (data state) (table.key (kind.ident row)) = some old)
    (tagged : kind.Tagged row old) : (kind.store now row).run backend state = (.ok ⟨⟩, state) := by
  rw [RowKind.run_store table.reads, table.read holds, found]
  rcases tagged with tag | ⟨untagged, tag⟩
  · simp only [Option.elim, RowKind.updated, RowKind.etag_restamp, tag, ne_eq, hashed,
      not_false_eq_true, ↓reduceIte]
  · simp only [Option.elim, RowKind.updated, RowKind.etag_restamp, untagged, tag, ne_eq,
      not_true_eq_false, ↓reduceIte]

end Storing

section Sweeping

variable {validate : R → Except Err R}

def sweep (kind : RowKind μ R I) (scan : TxOp μ (Iterator R)) (validate : R → Except Err R)
    (keep : R → Bool) : Tx μ PUnit := do
  let iterator ← Program.lift scan
  if let some error := iterator.closeError then throw error
  Program.each (iterator.values.filter fun row => !keep row) fun row => do
    let _ ← (Program.done (validate row) >>= kind.removeRow).attempt

theorem run_removals (holds : sound state) (same : ∀ row found, validate row = .ok found → found = row)
    (rows : List R) :
    ∃ after, (Program.each rows fun row => do
        let _ ← (Program.done (validate row) >>= kind.removeRow).attempt).run backend state =
          (.ok ⟨⟩, after) ∧ sound after ∧
      data after = part.set (data state) fun place =>
        if place ∈ (rows.filter fun row => (validate row).isOk).map fun row => table.key (kind.ident row)
        then none else part.get (data state) place := by
  induction rows generalizing state with
  | nil => exact ⟨state, rfl, holds, by simp⟩
  | cons row rest ih =>
      rw [Program.run_each_attempt_cons]
      cases valid : validate row with
      | error error =>
          have refused : (validate row).isOk = false := by rw [valid]; rfl
          obtain ⟨after, ran, kept, changed⟩ := ih holds
          refine ⟨after, ran, kept, ?_⟩
          rw [changed]
          simp only [List.filter_cons, refused, Bool.false_eq_true, ↓reduceIte]
      | ok found =>
          cases same row found valid
          have accepted : (validate row).isOk = true := by rw [valid]; rfl
          obtain ⟨middle, removed, kept, changed⟩ := table.remove holds (kind.ident row)
          obtain ⟨after, ran, keptAfter, changedAfter⟩ := ih kept
          refine ⟨after, ?_, keptAfter, ?_⟩
          · rw [Program.done_ok_bind, RowKind.removeRow, RowKind.run_orElseReport, removed]
            exact ran
          · rw [changedAfter, changed, Part.set_set, Part.get_set]
            congr 1
            funext place
            simp only [List.filter_cons, accepted, ↓reduceIte, List.map_cons, List.mem_cons,
              Function.update_apply]
            by_cases here : place = table.key (kind.ident row)
            · simp only [here, ↓reduceIte, ite_self, true_or]
            · simp only [here, ↓reduceIte, false_or]

theorem run_sweep (validate : R → Except Err R) (keep : R → Bool) (holds : sound state)
    (same : ∀ row found, validate row = .ok found → found = row) :
    ∃ after, (sweep kind scan validate keep).run backend state = (.ok ⟨⟩, after) ∧ sound after ∧
      data after = part.set (data state) fun place =>
        (part.get (data state) place).filter fun row => keep row || !(validate row).isOk := by
  obtain ⟨iterator, scanned, closed, _, listed⟩ := table.scans holds
  obtain ⟨after, ran, kept, changed⟩ := table.run_removals holds same
    (iterator.values.filter fun row => !keep row)
  refine ⟨after, ?_, kept, ?_⟩
  · simp only [sweep, Program.bind_eq, Program.run_bind, Program.run_lift, scanned, closed]
    exact ran
  · rw [changed]
    congr 1
    funext place
    have listedHere : place ∈ ((iterator.values.filter fun row => !keep row).filter
          fun row => (validate row).isOk).map (fun row => table.key (kind.ident row)) ↔
        ∃ row, part.get (data state) place = some row ∧ keep row = false ∧
          (validate row).isOk = true := by
      simp only [List.mem_map, List.mem_filter, listed, Bool.not_eq_true', and_assoc]
      constructor
      · intro found
        obtain ⟨row, stored, stale, valid, rfl⟩ := found
        exact ⟨row, stored, stale, valid⟩
      · intro found
        obtain ⟨row, stored, stale, valid⟩ := found
        have here := table.keyed holds stored
        exact ⟨row, here ▸ stored, stale, valid, here⟩
    simp only [listedHere]
    cases found : part.get (data state) place with
    | none => simp
    | some row => cases stale : keep row <;> cases valid : (validate row).isOk <;>
        simp [Option.filter, stale, valid]

end Sweeping

end Table

/-- The stored rows, and whatever else a backend keeps. -/
structure Data (κ ι ν : Type) where
  objects : κ → Option Object
  relations : ι → Option Relation
  rest : ν

section Parts

variable {κ ι ν : Type}

def objectPart : Part (Data κ ι ν) κ Object where
  get := Data.objects
  set data objects := { data with objects }
  get_set _ _ := rfl
  set_get _ := rfl
  set_set _ _ _ := rfl

def relationPart : Part (Data κ ι ν) ι Relation where
  get := Data.relations
  set data relations := { data with relations }
  get_set _ _ := rfl
  set_get _ := rfl
  set_set _ _ _ := rfl

end Parts

/-- A backend as its two tables. Whatever a transaction does to a sound state, it is sound
afterwards. -/
structure Layout {μ σ : Type} (library : Library μ) (backend : Backend μ σ) (κ ι ν : Type)
    [DecidableEq κ] [DecidableEq ι] where
  sound : σ → Prop
  data : σ → Data κ ι ν
  objects : Table backend (objectKind library) (.scanObjects [] []) sound data objectPart
  relations : Table backend (relationKind library) (.scanRelations .byObject {} []) sound data
    relationPart
  keeps : ∀ {β : Type} (op : TxOp μ β) {state}, sound state → sound (backend.exec op state).2

namespace Layout

variable {μ σ κ ι ν α : Type} [DecidableEq κ] [DecidableEq ι] {library : Library μ}
  {backend : Backend μ σ} (layout : Layout library backend κ ι ν)

theorem sound_run (program : Tx μ α) {state : σ} (holds : layout.sound state) :
    layout.sound (program.run backend state).2 := by
  induction program generalizing state with
  | done result => exact holds
  | call op next ih => exact ih _ (layout.keeps op holds)

theorem sound_update (program : Tx μ α) {state : σ} (holds : layout.sound state) :
    layout.sound (update backend program state).2 := by
  have ran := layout.sound_run program holds
  unfold update Program.commit
  cases outcome : program.run backend state with
  | mk answer written =>
      rw [outcome] at ran
      cases answer with
      | error error => exact holds
      | ok value => exact ran

end Layout

end Eamerald.Directory
