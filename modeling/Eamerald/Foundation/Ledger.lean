import Mathlib

/-! Rows that carry the times at which they were inserted and last changed. Whether these times
are right is a question to the history of the rows, and not to the code that writes them. -/

set_option autoImplicit false

namespace Eamerald.Foundation

variable {ι ρ γ τ : Type}

/-- The rows after an operation, and the time of the operation if it has one. -/
structure Moment (ι ρ τ : Type) where
  time : Option τ
  rows : ι → Option ρ

section Events

variable (content : ρ → γ) (ident : ι)

/-- The latest insertion of a row, in a history that has its latest moment first. -/
inductive InsertedAt : List (Moment ι ρ τ) → τ → Prop where
  | now {last before : Moment ι ρ τ} {earlier : List (Moment ι ρ τ)} {time : τ}
      (timed : last.time = some time) (absent : before.rows ident = none)
      (present : last.rows ident ≠ none) : InsertedAt (last :: before :: earlier) time
  | earlier {last before : Moment ι ρ τ} {earlier : List (Moment ι ρ τ)} {time : τ}
      (there : before.rows ident ≠ none) (still : last.rows ident ≠ none)
      (inserted : InsertedAt (before :: earlier) time) : InsertedAt (last :: before :: earlier) time

inductive ChangedAt : List (Moment ι ρ τ) → τ → Prop where
  | now {last before : Moment ι ρ τ} {earlier : List (Moment ι ρ τ)} {time : τ}
      (timed : last.time = some time)
      (differs : (last.rows ident).map content ≠ (before.rows ident).map content) :
      ChangedAt (last :: before :: earlier) time
  | earlier {last before : Moment ι ρ τ} {earlier : List (Moment ι ρ τ)} {time : τ}
      (same : (last.rows ident).map content = (before.rows ident).map content)
      (changed : ChangedAt (before :: earlier) time) : ChangedAt (last :: before :: earlier) time

end Events

variable (content : ρ → γ) (created updated : ρ → Option τ)

/-- A row is left, removed, inserted with the time, or changed with the time of the change. -/
def Stamps (time : Option τ) (old new : Option ρ) : Prop :=
  new = old ∨ new = none ∨ ∃ row now, new = some row ∧ time = some now ∧ updated row = some now ∧
    (old = none ∧ created row = some now ∨
      ∃ replaced, old = some replaced ∧ content replaced ≠ content row ∧ created row = created replaced)

inductive Recorded : List (Moment ι ρ τ) → Prop where
  | start {first : Moment ι ρ τ} (empty : ∀ ident, first.rows ident = none) : Recorded [first]
  | step {last before : Moment ι ρ τ} {earlier : List (Moment ι ρ τ)}
      (recorded : Recorded (before :: earlier))
      (stamps : ∀ ident, Stamps content created updated last.time (before.rows ident) (last.rows ident)) :
      Recorded (last :: before :: earlier)

/-- The times of a row are those of its latest insertion and of the latest change of its
content. -/
def Truthful (history : List (Moment ι ρ τ)) (ident : ι) (row : ρ) : Prop :=
  (∃ time, created row = some time ∧ InsertedAt ident history time) ∧
    ∃ time, updated row = some time ∧ ChangedAt content ident history time

variable {content created updated}

theorem Recorded.truthful {last : Moment ι ρ τ} {earlier : List (Moment ι ρ τ)}
    (recorded : Recorded content created updated (last :: earlier)) {ident : ι} {row : ρ}
    (found : last.rows ident = some row) : Truthful content created updated (last :: earlier) ident row := by
  -- By induction on the history; a row that is left or removed has no new times.
  induction earlier generalizing last row with
  | nil =>
      cases recorded with
      | start empty => cases (empty ident).symm.trans found
  | cons before earlier ih =>
      cases recorded with
      | step recorded stamps =>
          have present : last.rows ident ≠ none := by simp [found]
          rcases stamps ident with same | gone | ⟨new, now, written, timed, stamped, event⟩
          · have there := same.symm.trans found
            obtain ⟨⟨inserted, atInsertion, insertedAt⟩, changed, atChange, changedAt⟩ := ih recorded there
            refine ⟨⟨inserted, atInsertion, .earlier (by simp [there]) present insertedAt⟩,
              changed, atChange, .earlier (by rw [same]) changedAt⟩
          · exact absurd gone present
          · cases written.symm.trans found
            rcases event with ⟨absent, atInsertion⟩ | ⟨replaced, there, differs, kept⟩
            · refine ⟨⟨now, atInsertion, .now timed absent present⟩, now, stamped, .now timed ?_⟩
              simp [found, absent]
            · obtain ⟨⟨inserted, atInsertion, insertedAt⟩, _⟩ := ih recorded there
              refine ⟨⟨inserted, kept.trans atInsertion, .earlier (by simp [there]) present insertedAt⟩,
                now, stamped, .now timed ?_⟩
              rw [found, there]
              exact fun same => differs (Option.some.inj same).symm

end Eamerald.Foundation
