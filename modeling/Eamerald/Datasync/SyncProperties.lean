import Eamerald.Datasync.Sync
import Eamerald.Directory.Entries

/-! What the two stages of a synchronisation do to the contents of a store. The
subscriber stores the rows that the validators accept, one after the other; the
difference stage keeps what the filter knows and what the validators refuse. -/

set_option autoImplicit false

namespace Eamerald.Datasync

open Foundation Store Directory

def Row.entry : Row → Entry
  | .object message => .object (message.getD .zero)
  | .relation message => .relation (message.getD .zero)

def entryKey : Entry → GoString
  | .object message => objectRowKey message
  | .relation message => relationRowKey message

theorem Row.key_eq (row : Row) : row.key = entryKey row.entry := by
  cases row <;> rfl

theorem entryKey_bare (entry : Entry) : entryKey entry.bare = entryKey entry := by
  cases entry <;> rfl

def Run.exported {ω μ φ : Type} (filters : FilterLibrary φ) (run : Run μ) (edge : Edge ω) : List Entry :=
  (run.produced filters edge.file).1.map (·.row.entry)

section Validity

variable {μ : Type} (library : Library μ) (model : μ)

def Row.valid : Row → Bool
  | .object message => (validateObject library model message).isOk
  | .relation message => (validateRelation library model message).isOk

def entryValid : Entry → Bool
  | .object message => (validateObject library model (some message)).isOk
  | .relation message => (validateRelation library model (some message)).isOk

/-- The difference stage leaves alone what was exported and what it cannot delete. -/
def survives (exported : GoString → Bool) (entry : Entry) : Bool :=
  exported (entryKey entry) || !entryValid library model entry

variable {library} {σ : Type} {backend : Backend μ σ}

theorem run_apply_of_valid {applied : Applied μ} (valid : applied.row.valid library applied.model = true) :
    apply library applied = applied.row.entry.store library applied.now := by
  unfold apply
  cases shape : applied.row with
  | object message =>
      rw [shape, Row.valid] at valid
      cases message with
      | none => cases valid
      | some object =>
          cases checked : validateObject library applied.model (some object) with
          | error error =>
              rw [checked] at valid
              cases valid
          | ok row =>
              cases eq_of_validateObject checked
              simp only [objectSetHandler, checked, Program.done_ok_bind, Row.entry, Entry.store,
                Option.getD_some]
  | relation message =>
      rw [shape, Row.valid] at valid
      cases message with
      | none => cases valid
      | some relation =>
          cases checked : validateRelation library applied.model (some relation) with
          | error error =>
              rw [checked] at valid
              cases valid
          | ok row =>
              cases eq_of_validateRelation checked
              simp only [relationSetHandler, checked, Program.done_ok_bind, Row.entry, Entry.store,
                Option.getD_some]

theorem run_apply_of_refused {applied : Applied μ}
    (refused : applied.row.valid library applied.model = false) (state : σ) :
    ∃ error, (apply library applied).run backend state = (.error error, state) := by
  unfold apply
  cases shape : applied.row with
  | object message =>
      rw [shape, Row.valid] at refused
      cases checked : validateObject library applied.model message with
      | ok row =>
          rw [checked] at refused
          cases refused
      | error error => exact ⟨error, by simp only [objectSetHandler, checked]; rfl⟩
  | relation message =>
      rw [shape, Row.valid] at refused
      cases checked : validateRelation library applied.model message with
      | ok row =>
          rw [checked] at refused
          cases refused
      | error error => exact ⟨error, by simp only [relationSetHandler, checked]; rfl⟩

end Validity

theorem map_filter_eq {α β : Type} (value : Option α) (wrap : α → β) (test : β → Bool) :
    (value.filter fun found => test (wrap found)).map wrap = (value.map wrap).filter test := by
  cases value with
  | none => rfl
  | some found => cases passes : test (wrap found) <;> simp [Option.filter, passes]

section Stages

variable {μ σ κ ι ν : Type} [DecidableEq κ] [DecidableEq ι] {library : Library μ}
  {backend : Backend μ σ} (layout : Layout library backend κ ι ν) {state : σ}

theorem subscriber_takes (hashed : ∀ entry : Entry, entry.hash library ≠ []) (rows : List (Applied μ))
    (sound : layout.sound state) :
    layout.TakesAll ((appliedRows library backend rows state).map (·.row.entry)) state
      ((subscriber library rows).run backend state).2 := by
  induction rows generalizing state with
  | nil => rfl
  | cons applied rest ih =>
      rw [subscriber_cons]
      cases valid : applied.row.valid library applied.model with
      | false =>
          obtain ⟨error, ran⟩ : ∃ error, (apply library applied).run backend state =
              (.error error, state) := run_apply_of_refused valid state
          simp only [appliedRows, ran]
          exact ih sound
      | true =>
          have stores := run_apply_of_valid valid
          rcases layout.run_store hashed applied.now applied.row.entry sound with
            ⟨after, ran, kept, _, takes⟩ | ⟨_, error, _, ran⟩
          · rw [← stores] at ran
            simp only [appliedRows, ran]
            exact ⟨after, takes, ih kept⟩
          · rw [← stores] at ran
            simp only [appliedRows, ran]
            exact ih sound

theorem appliedRows_of_valid (hashed : ∀ entry : Entry, entry.hash library ≠ [])
    {rows : List (Applied μ)} (sound : layout.sound state)
    (valid : ∀ applied ∈ rows, applied.row.valid library applied.model = true)
    (fits : ∀ applied ∈ rows, layout.Fits applied.row.entry) :
    appliedRows library backend rows state = rows := by
  induction rows generalizing state with
  | nil => rfl
  | cons applied rest ih =>
      have stores := run_apply_of_valid (valid applied List.mem_cons_self)
      rcases layout.run_store hashed applied.now applied.row.entry sound with
        ⟨after, ran, kept, _, _⟩ | ⟨large, _⟩
      · rw [← stores] at ran
        simp only [appliedRows, ran]
        rw [ih kept (fun other member => valid other (List.mem_cons_of_mem _ member))
          fun other member => fits other (List.mem_cons_of_mem _ member)]
        rfl
      · exact absurd (fits applied List.mem_cons_self) large

theorem run_diff (model : μ) (exported : GoString → Bool) (sound : layout.sound state) :
    ∃ after, (diff library model exported).run backend state = (.ok ⟨⟩, after) ∧
      layout.sound after ∧ (layout.data after).rest = (layout.data state).rest ∧
      layout.entry after = fun place =>
        (layout.entry state place).filter (survives library model exported) := by
  obtain ⟨middle, swept, kept, changed⟩ := layout.objects.run_sweep
    (fun object => validateObject library model (some object))
    (fun object => exported (objectRowKey object)) sound fun _ _ => eq_of_validateObject
  obtain ⟨after, sweptAgain, keptAgain, changedAgain⟩ := layout.relations.run_sweep
    (fun relation => validateRelation library model (some relation))
    (fun relation => exported (relationRowKey relation)) kept fun _ _ => eq_of_validateRelation
  refine ⟨after, ?_, keptAgain, ?_, ?_⟩
  · have first : (diffObjects library model exported).run backend state = (.ok ⟨⟩, middle) := swept
    have second : (diffRelations library model exported).run backend middle = (.ok ⟨⟩, after) :=
      sweptAgain
    simp only [diff, Program.bind_eq, Program.run_bind, first]
    exact second
  · rw [changedAgain, changed]
    rfl
  · funext place
    simp only [Layout.entry, changedAgain, changed]
    cases place with
    | inl place =>
        exact map_filter_eq (layout.data state |>.objects place) Entry.object
          (survives library model exported)
    | inr place =>
        exact map_filter_eq (layout.data state |>.relations place) Entry.relation
          (survives library model exported)

end Stages

end Eamerald.Datasync
