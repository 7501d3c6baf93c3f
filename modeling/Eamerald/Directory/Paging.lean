import Eamerald.Directory.ScanProperties
import Eamerald.Foundation.Paging

/-! Following the pages of a listing. A scan that can be resumed at the token of each of
its rows is enumerated by its pages, whatever their size. -/

set_option autoImplicit false

namespace Eamerald.Directory

open Foundation Store

section Cutting

variable {α : Type} (accept : α → Bool) (pageSize : Int32)

theorem takePage_cuts (rows : List (Row α)) (items : List α) : ∃ taken rest, rows = taken ++ rest ∧
      (takePage accept pageSize rows items).items =
        items ++ (taken.filter fun row => accept row.value).map (·.value) ∧
      (rest = [] ∧ (takePage accept pageSize rows items).nextToken = [] ∨
        ∃ next more, taken ≠ [] ∧ rest = next :: more ∧
          (takePage accept pageSize rows items).nextToken = next.token) := by
  induction rows generalizing items with
  | nil => exact ⟨[], [], rfl, by simp [takePage], .inl ⟨rfl, rfl⟩⟩
  | cons row left ih =>
      -- What the recursive calls take, with this row in front of it.
      have extend (shown : List α)
          (before : shown = items ++ ([row].filter fun row => accept row.value).map (·.value)) :
          ∃ taken rest, row :: left = taken ++ rest ∧
            (takePage accept pageSize left shown).items =
              items ++ (taken.filter fun row => accept row.value).map (·.value) ∧
            (rest = [] ∧ (takePage accept pageSize left shown).nextToken = [] ∨
              ∃ next more, taken ≠ [] ∧ rest = next :: more ∧
                (takePage accept pageSize left shown).nextToken = next.token) := by
        obtain ⟨taken, rest, rfl, items_eq, ends⟩ := ih shown
        refine ⟨row :: taken, rest, rfl, ?_, ?_⟩
        · rw [items_eq, before, List.append_assoc, ← List.map_append, ← List.filter_append]
          rfl
        · rcases ends with last | ⟨next, more, _, rest_eq, token⟩
          · exact .inl last
          · exact .inr ⟨next, more, List.cons_ne_nil _ _, rest_eq, token⟩
      cases accepted : accept row.value with
      | false =>
          have skips : takePage accept pageSize (row :: left) items =
              takePage accept pageSize left items := by
            simp [takePage, accepted]
          rw [skips]
          exact extend items (by simp [accepted])
      | true =>
          by_cases full : ((items ++ [row.value]).length : Int) = pageSize.toInt
          · refine ⟨[row], left, rfl, ?_, ?_⟩
            · cases left <;> simp [takePage, accepted, ← full]
            · cases left with
              | nil => exact .inl ⟨rfl, by simp [takePage, accepted, ← full]⟩
              | cons next more =>
                  exact .inr ⟨next, more, List.cons_ne_nil _ _, rfl, by simp [takePage, accepted, ← full]⟩
          · have continues : takePage accept pageSize (row :: left) items =
                takePage accept pageSize left (items ++ [row.value]) := by
              simp only [takePage, accepted, Bool.not_true, Bool.false_eq_true, ↓reduceIte, full]
            rw [continues]
            exact extend (items ++ [row.value]) (by simp [accepted])

theorem length_takePage (rows : List (Row α)) {items : List α} (room : (items.length : Int) < pageSize.toInt) :
    ((takePage accept pageSize rows items).items.length : Int) ≤ pageSize.toInt := by
  induction rows generalizing items with
  | nil => exact Int.le_of_lt room
  | cons row rest ih =>
      unfold takePage
      split
      · exact ih room
      · dsimp only
        split
        · rename_i full
          cases rest <;> exact Int.le_of_eq full
        · rename_i notFull
          refine ih ?_
          rw [List.length_append, List.length_singleton] at notFull ⊢
          omega

end Cutting

section Resuming

variable {μ σ α : Type} (backend : Backend μ σ) (state : σ)

/-- The rows of a scan. At the token of a row the scan resumes with this row. -/
structure Resumes (scan : GoString → TxOp μ (Iterator α)) (rows : List (Row α)) : Prop where
  first : backend.exec (scan []) state = (.ok { rows }, state)
  later : ∀ before row after, rows = before ++ row :: after →
    row.token ≠ [] ∧ backend.exec (scan row.token) state = (.ok { rows := row :: after }, state)

variable {backend state} {scan : GoString → TxOp μ (Iterator α)} {rows : List (Row α)}

theorem Resumes.token_ne_nil (resumes : Resumes backend state scan rows) : ∀ row ∈ rows, row.token ≠ [] := by
  intro row member
  obtain ⟨before, after, split⟩ := List.append_of_mem member
  exact (resumes.later before row after split).1

theorem Resumes.enumerates {γ : Type} (resumes : Resumes backend state scan rows)
    {fetch : GoString → Except Err (List γ × GoString)} (accept : α → Bool) (present : α → γ) (pageSize : Int32)
    (fetches : ∀ token left, backend.exec (scan token) state = (.ok { rows := left }, state) →
      fetch token = .ok ((takePage accept pageSize left []).items.map present,
        (takePage accept pageSize left []).nextToken)) :
    Enumerates [] fetch [] (((rows.map (·.value)).filter accept).map present) := by
  let emit : Row α → Option γ := fun row => if accept row.value then some (present row.value) else none
  have emitted (some_rows : List (Row α)) : some_rows.filterMap emit =
      ((some_rows.filter fun row => accept row.value).map (·.value)).map present := by
    induction some_rows with
    | nil => rfl
    | cons row rest ih =>
        cases accepted : accept row.value <;>
          simp only [List.filterMap_cons, List.filter_cons, accepted, emit, ↓reduceIte,
            Bool.false_eq_true, List.map_cons] <;> simpa [emit] using ih
  have cut (token : GoString) (left : List (Row α))
      (scanned : backend.exec (scan token) state = (.ok { rows := left }, state)) :
      ∃ page, fetch token = .ok page ∧ Cuts [] (·.token) emit left page := by
    refine ⟨_, fetches token left scanned, ?_⟩
    obtain ⟨taken, rest, split, items, ends⟩ := takePage_cuts accept pageSize left []
    refine ⟨taken, rest, split, ?_, ends⟩
    rw [items, emitted]
    rfl
  have whole : ((rows.map (·.value)).filter accept).map present = rows.filterMap emit := by
    rw [emitted, List.filter_map]
    rfl
  rw [whole]
  exact enumerates_of_cuts resumes.token_ne_nil (cut [] rows resumes.first)
    fun before row after split => cut row.token (row :: after) (resumes.later before row after split).2

end Resuming

section Listings

variable {μ σ : Type} (library : ListLibrary μ) (model : μ) (backend : Backend μ σ) (state : σ)
  (pageSize : Int32) {request : GetRelationsRequest}

def objectPages (objectType : GoString) (token : GoString) : Except Err (List Object × GoString) :=
  (view backend (getObjects library model { objectType, page := some ⟨pageSize, token⟩ }) state).map
    fun response => (response.results, response.nextToken)

def relationPages (request : GetRelationsRequest) (token : GoString) :
    Except Err (List Relation × GoString) :=
  (view backend (getRelations library model { request with page := some ⟨pageSize, token⟩ }) state).map
    fun response => (response.results, response.nextToken)

variable {library model backend state pageSize}

theorem enumerates_objectPages {objectType : GoString} {rows : List (Row Object)}
    (resumes : Resumes backend state (.scanObjects objectType) rows)
    (valid : ∀ token, library.getObjectsRequest { objectType, page := some ⟨pageSize, token⟩ } = .ok ())
    (selectable : objectType ≠ [] → library.validateObjectSelector model ⟨objectType, []⟩ = .ok ()) :
    Enumerates [] (objectPages library model backend state pageSize objectType) []
      ((rows.map (·.value)).map patchObjectRead) := by
  have listed : Enumerates [] (objectPages library model backend state pageSize objectType) [] _ :=
    resumes.enumerates (fun _ => true) patchObjectRead pageSize ?_
  · rwa [List.filter_true] at listed
  · intro token left scanned
    rw [objectPages, getObjects_of_valid (valid token) selectable]
    simp only [listObjects, view, Program.bind_eq, Program.run_bind, Program.run_lift, Option.getD_some,
      scanned]
    rfl

/-- What the validators and the model library make of a listing request, on every page. -/
structure ListLibrary.Accepts (library : ListLibrary μ) (model : μ) (request : GetRelationsRequest)
    (pattern : SafeRelation) (pageSize : Int32) : Prop where
  valid : ∀ token, library.getRelationsRequest { request with page := some ⟨pageSize, token⟩ } = .ok ()
  safe : ∀ token, library.safeGetRelations { request with page := some ⟨pageSize, token⟩ } = pattern
  declared : library.validateRelations model pattern = .ok ()

theorem ListLibrary.Accepts.getRelations_eq {pattern : SafeRelation}
    (accepts : library.Accepts model request pattern pageSize) (token : GoString) :
    getRelations library model { request with page := some ⟨pageSize, token⟩ } =
      listRelations request.withObjects ⟨pageSize, token⟩ (pattern.direction library.toLibrary).1
        pattern.asFilter pattern.valueFilter := by
  unfold getRelations
  rw [accepts.valid, Program.done_ok_bind, accepts.safe]
  dsimp only
  rw [accepts.declared, Program.done_ok_bind]
  rfl

theorem closeAfter_clean {α : Type} (rows : List (Row α)) (taken : Page α) :
    closeAfter { rows } taken = .ok ⟨⟩ := by
  unfold closeAfter
  cases taken.exhausted <;> rfl

theorem view_listRelations {token : GoString} {left : List (Row Relation)} {direction : Direction}
    {filter : RelationFilter}
    (scanned : backend.exec (.scanRelations direction filter token) state = (.ok { rows := left }, state))
    (withObjects : Bool) (valueFilter : RelationIdentifier → Bool) :
    (view backend (listRelations withObjects ⟨pageSize, token⟩ direction filter valueFilter) state).map
        (fun response => (response.results, response.nextToken)) =
      .ok ((takePage (fun relation => valueFilter relation.ident) pageSize left []).items,
        (takePage (fun relation => valueFilter relation.ident) pageSize left []).nextToken) := by
  generalize cut : takePage (fun relation => valueFilter relation.ident) pageSize left [] = taken
  simp only [view, listRelations, Program.bind_eq, Program.run_bind, Program.run_lift, scanned, cut,
    closeAfter_clean]
  cases withObjects with
  | false => rfl
  | true =>
      obtain ⟨objects, after, read⟩ := run_getWithObjects backend taken.items ∅ state
      simp only [Program.run, ↓reduceIte, Program.run_bind, read]
      rfl

theorem enumerates_relationPages {pattern : SafeRelation}
    {rows : List (Row Relation)} (accepts : library.Accepts model request pattern pageSize)
    (resumes : Resumes backend state
      (.scanRelations (pattern.direction library.toLibrary).1 pattern.asFilter) rows) :
    Enumerates [] (relationPages library model backend state pageSize request) []
      ((rows.map (·.value)).filter fun relation => pattern.valueFilter relation.ident) := by
  have listed : Enumerates [] (relationPages library model backend state pageSize request) [] _ :=
    resumes.enumerates (fun relation => pattern.valueFilter relation.ident) id pageSize ?_
  · rwa [List.map_id] at listed
  · intro token left scanned
    rw [relationPages, accepts.getRelations_eq, view_listRelations scanned, List.map_id]

end Listings

end Eamerald.Directory
