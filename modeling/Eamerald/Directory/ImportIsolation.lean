import Eamerald.Directory.Interruption
import Eamerald.Directory.RoundTrip
import Eamerald.Foundation.Refusals

/-! Imports on a store that refuses statements. All requests of a stream share a
transaction. What a refused statement does to the other requests depends on the engine,
and whether it is reported on the statement. -/

set_option autoImplicit false

namespace Eamerald.Directory

open Foundation Store

variable {error : Err}

def Engine.aborts {ω : Type} : Engine ω → Bool
  | .bolt => false
  | .postgres _ => true

/-- The errors of both engines are plain ones. -/
def Engine.refusals {ω : Type} (engine : Engine ω) (refuses : Nat → Bool) (text : String) :
    Refusals Err where
  refuses
  refusal := .engine text
  aborts := engine.aborts
  closed := .engine "current transaction is aborted, commands ignored until end of transaction block"
  rollback := .engine "commit postgres transaction: commit unexpectedly resulted in rollback"

/-- The write of a set and the first statement of a removal fail with a status. -/
def reportsRefusal : Opcode → Nat → Bool
  | .set, index => index = 1
  | _, index => index = 0

section Requests

variable {μ σ : Type} (refusals : Refusals Err)

/-- Without a refusal, or with a status and no effect, or with the plain error of a refusal. -/
inductive Handled (opCode : Opcode) (attempt : Attempt σ) : Except Err PUnit × Attempt σ → Prop where
  | succeeded {after : Attempt σ} (spared : refusals.Spares attempt.issued after.issued) :
      Handled opCode attempt (.ok ⟨⟩, after)
  | reported {error : Err} {after : Attempt σ} (status : error.hasStatus = true)
      (unchanged : after.state = attempt.state)
      (reports : ∀ n < after.issued, attempt.issued ≤ n → refusals.refuses n = true →
        reportsRefusal opCode (n - attempt.issued) = true) :
      Handled opCode attempt (.error error, after)
  | silent {after : Attempt σ} {n : Nat} (upper : n < after.issued) (lower : attempt.issued ≤ n)
      (refused : refusals.refuses n = true)
      (unreported : reportsRefusal opCode (n - attempt.issued) = false) :
      Handled opCode attempt (.error refusals.refusal, after)

variable {refusals} {opCode : Opcode} {attempt : Attempt σ}

theorem Handled.rejected (status : error.hasStatus = true) :
    Handled refusals opCode attempt (.error error, attempt) :=
  .reported status rfl fun _ upper lower => absurd (Nat.lt_of_lt_of_le upper lower) (Nat.lt_irrefl _)

section Tables

variable {R I Δ κ : Type} [DecidableEq κ] {backend : Backend μ σ} {kind : RowKind μ R I}
  {scan : TxOp μ (Iterator R)} {sound : σ → Prop} {data : σ → Δ} {part : Part Δ κ R}
  (table : Table backend kind scan sound data part) (row : R)
  (holds : sound attempt.state) (fresh : attempt.aborted = false)

include table holds fresh

theorem Table.handled_write (setStatus : kind.setError.hasStatus = true)
    (spared : refusals.refuses attempt.issued = false) : Handled refusals .set attempt
      (((orElseReport kind.setError (kind.write row)).bind fun _ => pure ⟨⟩).run
        (backend.refusing refusals) { attempt with issued := attempt.issued + 1 }) := by
  rw [Program.run_bind, RowKind.run_orElseReport]
  let read : Attempt σ := { attempt with issued := attempt.issued + 1 }
  have unaborted : read.aborted = false := fresh
  cases refused : refusals.refuses read.issued with
  | true =>
      rw [exec_of_refused _ unaborted refused]
      refine .reported setStatus rfl ?_
      intro n upper lower hit
      have apart : n ≠ attempt.issued := fun same => by rw [same, spared] at hit; cases hit
      have upper : n < attempt.issued + 1 + 1 := upper
      have here : n - attempt.issued = 1 := by omega
      simp [reportsRefusal, here]
  | false =>
      rw [exec_of_spared _ unaborted refused]
      have both : refusals.Spares attempt.issued (attempt.issued + 1 + 1) :=
        .cons spared (.cons refused (.of_eq rfl))
      by_cases fits : table.fits (kind.ident row)
      · obtain ⟨after, written, _⟩ := table.write holds fits
        rw [written]
        exact .succeeded both
      · obtain ⟨error, denied⟩ := table.refuse holds fits
        rw [denied]
        refine .reported setStatus rfl ?_
        intro n upper lower hit
        rw [both n upper lower] at hit
        cases hit

theorem Table.handled_store (setStatus : kind.setError.hasStatus = true)
    (plain : refusals.refusal.isNotFound = false) (now : Timestamp) :
    Handled refusals .set attempt ((kind.store now row).run (backend.refusing refusals) attempt) := by
  simp only [RowKind.store, Program.bind_eq, Program.run_bind, RowKind.run_updateMetadata]
  cases refused : refusals.refuses attempt.issued with
  | true =>
      rw [exec_of_refused _ fresh refused]
      simp only [RowKind.updated, plain, Bool.false_eq_true, ↓reduceIte]
      exact .silent (Nat.lt_succ_self _) (Nat.le_refl _) refused (by simp [reportsRefusal])
  | false =>
      rw [exec_of_spared _ fresh refused, table.read holds]
      cases updated : kind.updated now row
          ((part.get (data attempt.state) (table.key (kind.ident row))).elim (.error table.missing)
            .ok) with
      | error error =>
          obtain ⟨failed, unexpected⟩ := RowKind.updated_error updated
          cases found : part.get (data attempt.state) (table.key (kind.ident row)) with
          | none =>
              rw [found] at failed
              cases failed
              rw [table.missing_isNotFound] at unexpected
              cases unexpected
          | some stored =>
              rw [found] at failed
              cases failed
      | ok current =>
          dsimp only
          split
          · exact .succeeded (.cons refused (.of_eq rfl))
          · exact table.handled_write _ holds fresh setStatus refused

theorem Table.handled_removeRow (deleteStatus : kind.deleteError.hasStatus = true) (removes : opCode ≠ .set) :
    Handled refusals opCode attempt ((kind.removeRow row).run (backend.refusing refusals) attempt) := by
  rw [RowKind.removeRow, RowKind.run_orElseReport]
  cases refused : refusals.refuses attempt.issued with
  | true =>
      rw [exec_of_refused _ fresh refused]
      refine .reported deleteStatus rfl ?_
      intro n upper lower _
      have here : n = attempt.issued := Nat.le_antisymm (Nat.lt_succ_iff.mp upper) lower
      subst here
      cases opCode <;> simp_all [reportsRefusal]
  | false =>
      obtain ⟨after, removed, _⟩ := table.remove holds (kind.ident row)
      rw [exec_of_spared _ fresh refused, removed]
      exact .succeeded (.cons refused (.of_eq rfl))

end Tables

end Requests

section Removals

variable {μ : Type}

theorem transparent_deleteRelationsWithPrefix (direction : Direction) (objectType objectId : GoString) :
    (deleteRelationsWithPrefix (μ := μ) direction objectType objectId).Transparent := by
  have scans : (relationsByObject (μ := μ) direction objectType objectId).Transparent :=
    .bind (.lift _) fun _ => trivial
  exact scans.bind fun _ => .each fun _ => .lift _

variable {ω : Type} [Wire ω μ] {library : Library μ} {engine : Engine ω} {state : engine.State}

theorem Engine.scans_relations (sound : (engine.layout library).sound state) (direction : Direction)
    (filter : RelationFilter) :
    ∃ iterator, engine.backend.exec (TxOp.scanRelations (μ := μ) direction filter []) state =
      (.ok iterator, state) := by
  cases engine with
  | postgres server =>
      refine ⟨_, Prod.ext ?_ rfl⟩
      change Postgres.scanRelations server direction filter [] state = _
      simp only [Postgres.scanRelations, Postgres.resume, ↓reduceIte]
  | bolt =>
      have there : ∃ bucket, state.bucket (Bolt.directionPath direction) = some bucket := by
        cases direction with
        | byObject =>
            obtain ⟨bucket, found, _⟩ := (sound : Bolt.Filed state).relations
            exact ⟨bucket, found⟩
        | bySubject => exact (sound : Bolt.Filed state).subjects
      obtain ⟨bucket, found⟩ := there
      exact ⟨_, Prod.ext (Bolt.scanIterator_first found) rfl⟩

theorem Engine.run_deleteEach (sound : (engine.layout library).sound state) (relations : List Relation) :
    ((Program.each relations fun relation => Program.lift (TxOp.deleteRelation (μ := μ) relation.ident)).run
      engine.backend state).1 = .ok ⟨⟩ := by
  induction relations generalizing state with
  | nil => rfl
  | cons relation rest ih =>
      obtain ⟨after, removed, kept, _⟩ := (engine.layout library).relations.remove sound relation.ident
      have removed : engine.backend.exec (TxOp.deleteRelation (μ := μ) relation.ident) state =
          (.ok (), after) := removed
      rw [Program.each, Program.run_bind, Program.run_lift, removed]
      exact ih kept

theorem Engine.run_deleteRelationsWithPrefix (sound : (engine.layout library).sound state)
    (direction : Direction) (objectType objectId : GoString) :
    ((deleteRelationsWithPrefix (μ := μ) direction objectType objectId).run engine.backend state).1 =
      .ok ⟨⟩ := by
  obtain ⟨iterator, scanned⟩ := engine.scans_relations sound direction
    (objectOnlyFilter direction objectType objectId)
  simp only [deleteRelationsWithPrefix, relationsByObject, Program.bind_eq, Program.run_bind,
    Program.run_lift, scanned]
  exact engine.run_deleteEach sound iterator.values

def removeRelationsOf (object : Object) : Tx μ PUnit := do
  deleteRelationsWithPrefix .bySubject object.type object.id
  deleteRelationsWithPrefix .byObject object.type object.id

theorem Engine.run_removeRelationsOf (sound : (engine.layout library).sound state) (object : Object) :
    ((removeRelationsOf (μ := μ) object).run engine.backend state).1 = .ok ⟨⟩ := by
  have first := engine.run_deleteRelationsWithPrefix sound .bySubject object.type object.id
  have kept := (engine.layout library).sound_run
    (deleteRelationsWithPrefix .bySubject object.type object.id) sound
  rw [removeRelationsOf, Program.bind_eq, Program.run_bind]
  cases ran : (deleteRelationsWithPrefix (μ := μ) .bySubject object.type object.id).run engine.backend
      state with
  | mk answer after =>
      rw [ran] at first kept
      cases first
      exact engine.run_deleteRelationsWithPrefix kept .byObject object.type object.id

end Removals

/-- The validators answer with errors that have a status. -/
structure Library.Typed {μ : Type} (library : Library μ) : Prop where
  object : ∀ {object error}, library.object object = .error error → error.hasStatus = true
  relation : ∀ {relation error}, library.relation relation = .error error → error.hasStatus = true
  validateObject : ∀ {model object error}, library.validateObject model object = .error error →
    error.hasStatus = true
  validateRelation : ∀ {model ident error}, library.validateRelation model ident = .error error →
    error.hasStatus = true

section Validation

variable {μ : Type} {library : Library μ}

theorem hasStatus_modelValidateError (status : error.hasStatus = true) :
    (modelValidateError library error).hasStatus = true := by
  cases error with
  | rejected message detail => cases detail <;> rfl
  | engine text => cases status
  | aserto error => rfl
  | derr kind message => rfl

theorem hasStatus_checks {α : Type} {row : α} {first second : Except Err Unit}
    (failed : (do first; onError (modelValidateError library) second; return row) = .error error)
    (firstStatus : ∀ {error}, first = .error error → error.hasStatus = true)
    (secondStatus : ∀ {error}, second = .error error → error.hasStatus = true) :
    error.hasStatus = true := by
  cases first with
  | error refusal =>
      cases failed
      exact firstStatus rfl
  | ok _ =>
      cases second with
      | error refusal =>
          cases failed
          exact hasStatus_modelValidateError (secondStatus rfl)
      | ok _ => cases failed

variable (typed : library.Typed) {model : μ} {error : Err}

include typed

theorem hasStatus_validateImportObject {object : Option Object}
    (failed : validateImportObject library model object = .error error) : error.hasStatus = true := by
  cases object with
  | none =>
      cases failed
      rfl
  | some object => exact hasStatus_checks failed typed.object typed.validateObject

theorem hasStatus_validateImportRelation {relation : Option Relation}
    (failed : validateImportRelation library model relation = .error error) : error.hasStatus = true := by
  cases relation with
  | none =>
      cases failed
      rfl
  | some relation => exact hasStatus_checks failed typed.relation typed.validateRelation

end Validation

section Handlers

variable {ω μ : Type} [Wire ω μ] {library : Library μ} {engine : Engine ω} {refusals : Refusals Err}
  {attempt : Attempt engine.State} (sound : (engine.layout library).sound attempt.state)
  (fresh : attempt.aborted = false)

include sound fresh

theorem handled_removeWithRelations (object : Object) : Handled refusals .deleteWithRelations attempt
      (((removeObject (μ := μ) object).bind fun _ => removeRelationsOf object).run
        (engine.backend.refusing refusals) attempt) := by
  rw [removeObject_eq library, Program.run_bind, RowKind.removeRow, RowKind.run_orElseReport]
  cases refused : refusals.refuses attempt.issued with
  | true =>
      rw [exec_of_refused _ fresh refused]
      refine .reported rfl rfl ?_
      intro n upper lower _
      have here : n = attempt.issued := Nat.le_antisymm (Nat.lt_succ_iff.mp upper) lower
      simp [reportsRefusal, here]
  | false =>
      obtain ⟨after, removed, kept, _⟩ := (engine.layout library).objects.remove sound
        ((objectKind library).ident object)
      rw [exec_of_spared _ fresh refused, removed]
      have transparent : (removeRelationsOf (μ := μ) object).Transparent :=
        (transparent_deleteRelationsWithPrefix ..).bind fun _ =>
          transparent_deleteRelationsWithPrefix ..
      let left : Attempt engine.State := { attempt with state := after, issued := attempt.issued + 1 }
      have unaborted : left.aborted = false := fresh
      change Handled refusals .deleteWithRelations attempt
        ((removeRelationsOf (μ := μ) object).run (engine.backend.refusing refusals) left)
      cases ran : (removeRelationsOf (μ := μ) object).run (engine.backend.refusing refusals) left with
      | mk answer final =>
          rcases transparent.run_refusing ran unaborted with
            ⟨spared, same⟩ | ⟨rfl, n, upper, lower, hit⟩
          · have answered := engine.run_removeRelationsOf kept object
            rw [same] at answered
            cases answered
            exact .succeeded (.cons refused spared)
          · have later : attempt.issued + 1 ≤ n := lower
            refine .silent upper (Nat.le_of_succ_le later) hit ?_
            simp only [reportsRefusal, decide_eq_false_iff_not]
            omega

theorem handled_request (typed : library.Typed) (plain : refusals.refusal.isNotFound = false)
    (received : Received μ) : Handled refusals received.request.opCode attempt
      ((handleReceived library received).run (engine.backend.refusing refusals) attempt) := by
  obtain ⟨model, now, opCode, message⟩ := received
  cases message with
  | unset => cases opCode <;> exact .rejected rfl
  | object object =>
      cases valid : validateImportObject library model object with
      | error error =>
          have status := hasStatus_validateImportObject typed valid
          cases opCode with
          | other code => exact .rejected rfl
          | _ =>
              simp only [handleReceived, importHandler, objectSetHandler, objectDeleteHandler,
                objectDeleteWithRelationsHandler, valid]
              exact .rejected status
      | ok row =>
          cases opCode with
          | other code => exact .rejected rfl
          | set =>
              simp only [handleReceived, importHandler, objectSetHandler, valid, Program.done_ok_bind,
                storeObject_eq]
              exact (engine.layout library).objects.handled_store row sound fresh rfl plain now
          | delete =>
              simp only [handleReceived, importHandler, objectDeleteHandler, valid, Program.done_ok_bind,
                removeObject_eq library]
              exact (engine.layout library).objects.handled_removeRow row sound fresh rfl (by decide)
          | deleteWithRelations =>
              simp only [handleReceived, importHandler, objectDeleteWithRelationsHandler, valid,
                Program.done_ok_bind]
              exact handled_removeWithRelations sound fresh row
  | relation relation =>
      cases valid : validateImportRelation library model relation with
      | error error =>
          have status := hasStatus_validateImportRelation typed valid
          cases opCode with
          | other code => exact .rejected rfl
          | deleteWithRelations => exact .rejected rfl
          | _ =>
              simp only [handleReceived, importHandler, relationSetHandler, relationDeleteHandler, valid]
              exact .rejected status
      | ok row =>
          cases opCode with
          | other code => exact .rejected rfl
          | deleteWithRelations => exact .rejected rfl
          | set =>
              simp only [handleReceived, importHandler, relationSetHandler, valid,
                Program.done_ok_bind, storeRelation_eq]
              exact (engine.layout library).relations.handled_store row sound fresh rfl plain now
          | delete =>
              simp only [handleReceived, importHandler, relationDeleteHandler, valid,
                Program.done_ok_bind, removeRelation_eq library]
              exact (engine.layout library).relations.handled_removeRow row sound fresh rfl (by decide)

end Handlers

abbrev Outcome (μ : Type) := Received μ × Except Err Unit

section Isolation

variable {ω μ : Type} [Wire ω μ] (library : Library μ) (engine : Engine ω) (refusals : Refusals Err)
  {received : List (Received μ)} {state : engine.State}

def handledRequests (received : List (Received μ)) (attempt : Attempt engine.State) :
    List (Outcome μ) × Attempt engine.State :=
  consume (engine.backend.refusing refusals) (handleReceived library) received attempt

def succeeding (entries : List (Outcome μ)) : List (Received μ) :=
  (entries.filter (·.2.isOk)).map Prod.fst

def failing (entries : List (Outcome μ)) : List (Received μ) :=
  (entries.filter fun entry => !entry.2.isOk).map Prod.fst

/-- The import commits what the other requests do, and sends a status for each failing one. -/
def Isolates (received : List (Received μ)) (state : engine.State) : Prop :=
  let entries := (handledRequests library engine refusals received { state }).1
  ∃ counters statuses counted after,
    refusals.transact engine.backend (importStream library received (.eof (.ok ⟨⟩))) state =
      (.ok (counters, statuses), after) ∧
    update engine.backend (importStream library (succeeding entries) (.eof (.ok ⟨⟩))) state =
      (.ok (counted, []), after) ∧
    statuses.map (·.req) = (failing entries).map (·.request)

/-- Every statement that is refused belongs to a transaction that goes on, and its refusal is
reported. -/
def Harmless : List (Received μ) → Attempt engine.State → Prop
  | [], _ => True
  | received :: rest, attempt =>
      let after := ((handleReceived library received).run (engine.backend.refusing refusals) attempt).2
      (∀ n < after.issued, attempt.issued ≤ n → refusals.refuses n = true →
        refusals.aborts = false ∧
          reportsRefusal received.request.opCode (n - attempt.issued) = true) ∧
      Harmless rest after

instance decidableHarmless : (received : List (Received μ)) → (attempt : Attempt engine.State) →
    Decidable (Harmless library engine refusals received attempt)
  | [], _ => inferInstanceAs (Decidable True)
  | received :: rest, attempt =>
      have := decidableHarmless rest
        ((handleReceived library received).run (engine.backend.refusing refusals) attempt).2
      inferInstanceAs (Decidable ((∀ n < _, attempt.issued ≤ n → refusals.refuses n = true →
        refusals.aborts = false ∧
          reportsRefusal received.request.opCode (n - attempt.issued) = true) ∧ _))

variable {library engine refusals} {attempt : Attempt engine.State}

theorem handledRequests_nil : handledRequests library engine refusals [] attempt = ([], attempt) := rfl

theorem handledRequests_cons (received : Received μ) (rest : List (Received μ)) :
    handledRequests library engine refusals (received :: rest) attempt =
      let ran := (handleReceived library received).run (engine.backend.refusing refusals) attempt
      let later := handledRequests library engine refusals rest ran.2
      ((received, ran.1) :: later.1, later.2) := rfl

theorem aborted_handledRequests (received : List (Received μ)) (aborted : attempt.aborted = true) :
    (handledRequests library engine refusals received attempt).2.aborted = true := by
  induction received generalizing attempt with
  | nil => exact aborted
  | cons first rest ih =>
      rw [handledRequests_cons]
      exact ih (Program.aborted_run _ _ _ aborted)

/-- Every failure in the stream has a status. -/
def AllReported (entries : List (Outcome μ)) : Prop :=
  ∀ entry ∈ entries, ∀ error, entry.2 = .error error → error.hasStatus = true

theorem allReported_nil : AllReported ([] : List (Outcome μ)) := by
  intro entry member
  cases member

theorem allReported_cons {entry : Outcome μ} {rest : List (Outcome μ)} : AllReported (entry :: rest) ↔
      (∀ error, entry.2 = .error error → error.hasStatus = true) ∧ AllReported rest :=
  List.forall_mem_cons

theorem length_statuses_le (entries : List (Outcome μ)) :
    (entries.filterMap entryStatus).length ≤ (failing entries).length := by
  induction entries with
  | nil => exact Nat.le_refl _
  | cons entry rest ih =>
      obtain ⟨received, outcome⟩ := entry
      cases outcome with
      | ok value => exact ih
      | error error =>
          cases status : error.hasStatus with
          | true => simpa [entryStatus, importStatus?, failing, status, Except.isOk, Except.toBool] using ih
          | false =>
              refine Nat.le_trans ?_ (Nat.le_succ_of_le ih)
              simp [entryStatus, importStatus?, status]

theorem statuses_eq_iff (entries : List (Outcome μ)) :
    (entries.filterMap entryStatus).map (·.req) = (failing entries).map (·.request) ↔ AllReported entries := by
  induction entries with
  | nil => simp [failing, AllReported]
  | cons entry rest ih =>
      obtain ⟨received, outcome⟩ := entry
      rw [allReported_cons]
      cases outcome with
      | ok value =>
          have none : entryStatus (received, .ok value) = none := rfl
          have fails : failing ((received, .ok value) :: rest) = failing rest := rfl
          rw [← ih, List.filterMap_cons_none none, fails]
          simp
      | error error =>
          have fails : failing ((received, .error error) :: rest) = received :: failing rest := rfl
          cases status : error.hasStatus with
          | true =>
              rw [← ih, fails]
              simp [entryStatus, importStatus?, status]
          | false =>
              have silent : entryStatus (received, .error error) = none := by
                simp [entryStatus, importStatus?, status]
              rw [List.filterMap_cons_none silent, fails]
              constructor
              · intro same
                have short := length_statuses_le rest
                have long := congrArg List.length same
                simp only [List.length_map, List.length_cons] at long
                omega
              · rintro ⟨known, _⟩
                rw [known error rfl] at status
                cases status

section Runs

variable (typed : library.Typed) (plain : refusals.refusal.hasStatus = false)

theorem isNotFound_of_plain (plain : error.hasStatus = false) : error.isNotFound = false := by
  cases error with
  | engine text => rfl
  | aserto error => cases plain
  | derr kind message => cases plain
  | rejected message detail => cases plain

include typed plain

theorem isolated_of_harmless
    (sound : (engine.layout library).sound attempt.state) (fresh : attempt.aborted = false)
    (harmless : Harmless library engine refusals received attempt) :
    (handledRequests library engine refusals received attempt).2.aborted = false ∧
      AllReported (handledRequests library engine refusals received attempt).1 ∧
      consume engine.backend (handleReceived library)
          (succeeding (handledRequests library engine refusals received attempt).1) attempt.state =
        ((succeeding (handledRequests library engine refusals received attempt).1).map (·, .ok ⟨⟩),
          (handledRequests library engine refusals received attempt).2.state) := by
  induction received generalizing attempt with
  | nil =>
      rw [handledRequests_nil]
      exact ⟨fresh, allReported_nil, rfl⟩
  | cons first rest ih =>
      have handled := handled_request sound fresh typed (isNotFound_of_plain plain) first
      have kept := Program.holds_run engine.backend refusals (handleReceived library first)
        (fun op _ holds => (engine.layout library).keeps op holds) sound
      obtain ⟨reports, later⟩ := harmless
      rw [handledRequests_cons]
      cases ran : (handleReceived library first).run (engine.backend.refusing refusals) attempt with
      | mk outcome after =>
          rw [ran] at handled kept reports later
          have unaborted : after.aborted = false := by
            rcases Program.run_refusing ran fresh with ⟨_, unaborted, _⟩ | ⟨⟨n, upper, lower, hit⟩, _⟩
            · exact unaborted
            · have continues := (reports n upper lower hit).1
              have stays := Program.unaborted_run engine.backend refusals (handleReceived library first)
                continues fresh
              rw [ran] at stays
              exact stays
          obtain ⟨stays, all, same⟩ := ih kept unaborted later
          refine ⟨stays, ?_⟩
          cases handled with
          | succeeded spared =>
              have clean := Program.run_of_spared ran fresh spared
              refine ⟨allReported_cons.mpr ⟨fun error failed => (nomatch failed), all⟩, ?_⟩
              change consume engine.backend (handleReceived library) (first :: succeeding _) _ = _
              rw [consume, clean]
              dsimp only
              rw [same]
              rfl
          | reported status unchanged _ =>
              refine ⟨allReported_cons.mpr ⟨?_, all⟩, ?_⟩
              · intro error failed
                cases failed
                exact status
              · rw [← unchanged]
                exact same
          | silent upper lower hit unreported =>
              rw [(reports _ upper lower hit).2] at unreported
              cases unreported

theorem harmless_of_reported
    (sound : (engine.layout library).sound attempt.state) (fresh : attempt.aborted = false)
    (stays : (handledRequests library engine refusals received attempt).2.aborted = false)
    (all : AllReported (handledRequests library engine refusals received attempt).1) :
    Harmless library engine refusals received attempt := by
  induction received generalizing attempt with
  | nil => exact trivial
  | cons first rest ih =>
      have handled := handled_request sound fresh typed (isNotFound_of_plain plain) first
      have kept := Program.holds_run engine.backend refusals (handleReceived library first)
        (fun op _ holds => (engine.layout library).keeps op holds) sound
      rw [handledRequests_cons] at stays all
      rw [Harmless]
      cases ran : (handleReceived library first).run (engine.backend.refusing refusals) attempt with
      | mk outcome after =>
          rw [ran] at handled kept stays all
          obtain ⟨reported, later⟩ := allReported_cons.mp all
          have unaborted : after.aborted = false := by
            cases aborted : after.aborted with
            | false => rfl
            | true => exact absurd stays (ne_false_of_eq_true (aborted_handledRequests rest aborted))
          refine ⟨?_, ih kept unaborted stays later⟩
          intro n upper lower hit
          constructor
          · rcases Program.run_refusing ran fresh with ⟨spared, _⟩ | ⟨_, aborts⟩
            · rw [spared n upper lower] at hit
              cases hit
            · cases aborting : refusals.aborts with
              | false => rfl
              | true => exact absurd (aborts aborting) (ne_true_of_eq_false unaborted)
          · cases handled with
            | succeeded spared =>
                rw [spared n upper lower] at hit
                cases hit
            | reported _ _ reports => exact reports n upper lower hit
            | silent =>
                have status := reported _ rfl
                rw [plain] at status
                cases status

end Runs

theorem transact_of_aborted
    (aborted : (handledRequests library engine refusals received { state }).2.aborted = true) :
    refusals.transact engine.backend (importStream library received (.eof (.ok ⟨⟩))) state =
      (.error refusals.rollback, state) := by
  rw [Refusals.transact, run_importStream]
  exact if_pos aborted

theorem transact_of_open
    (stays : (handledRequests library engine refusals received { state }).2.aborted = false) :
    refusals.transact engine.backend (importStream library received (.eof (.ok ⟨⟩))) state =
      (.ok ((handledRequests library engine refusals received { state }).1.foldl
          (fun counters entry => countEntry entry counters) {},
        (handledRequests library engine refusals received { state }).1.filterMap entryStatus),
        (handledRequests library engine refusals received { state }).2.state) := by
  rw [Refusals.transact, run_importStream]
  exact if_neg (ne_true_of_eq_false stays)

theorem update_of_succeeding {requests : List (Received μ)} {after : engine.State}
    (handled : consume engine.backend (handleReceived library) requests state =
      (requests.map (·, .ok ⟨⟩), after)) :
    ∃ counted, update engine.backend (importStream library requests (.eof (.ok ⟨⟩))) state =
      (.ok (counted, []), after) := by
  have quiet : (requests.map fun request => (request, (.ok ⟨⟩ : Except Err Unit))).filterMap
      entryStatus = [] := by
    simp [List.filterMap_map, Function.comp_def, entryStatus, importStatus?]
  refine ⟨(requests.map (·, .ok ⟨⟩)).foldl (fun counters entry => countEntry entry counters) {}, ?_⟩
  refine Program.commit_ok.mpr ?_
  rw [run_importStream, handled]
  dsimp only
  rw [quiet]
  rfl

section Statements

variable (typed : library.Typed) {refuses : Nat → Bool} {text : String} {received : List (Received μ)}
  {state : engine.State} (sound : (engine.layout library).sound state)

include typed sound

theorem harmless_of_isolates
    (isolates : Isolates library engine (engine.refusals refuses text) received state) :
    Harmless library engine (engine.refusals refuses text) received { state } := by
  obtain ⟨counters, statuses, counted, after, imported, _, one⟩ := isolates
  cases aborted : (handledRequests library engine (engine.refusals refuses text) received
      { state }).2.aborted with
  | true => cases (transact_of_aborted aborted).symm.trans imported
  | false =>
      cases (transact_of_open aborted).symm.trans imported
      exact harmless_of_reported typed rfl sound rfl aborted ((statuses_eq_iff _).mp one)

theorem isolates_of_harmless
    (harmless : Harmless library engine (engine.refusals refuses text) received { state }) :
    Isolates library engine (engine.refusals refuses text) received state := by
  obtain ⟨stays, all, others⟩ := isolated_of_harmless typed rfl sound rfl harmless
  obtain ⟨counted, clean⟩ := update_of_succeeding others
  exact ⟨_, _, counted, _, transact_of_open stays, clean, (statuses_eq_iff _).mpr all⟩

end Statements

/-- A refused statement leaves the other requests alone and is reported exactly if the
transaction goes on after it and the handler of the request gives its error a status. -/
theorem import_isolates_iff (typed : library.Typed) (refuses : Nat → Bool) (text : String)
    (received : List (Received μ)) {state : engine.State}
    (sound : (engine.layout library).sound state) :
    Isolates library engine (engine.refusals refuses text) received state ↔
      Harmless library engine (engine.refusals refuses text) received { state } :=
  ⟨harmless_of_isolates typed sound, isolates_of_harmless typed sound⟩

end Isolation

section Examples

theorem simple_typed : Simple.library.Typed := by
  have required {condition : Bool} {message : String} {error : Err}
      (failed : Simple.require condition message = .error error) : error.hasStatus = true := by
    unfold Simple.require at failed
    split at failed
    · cases failed
    · cases failed
      rfl
  exact ⟨required, required, required, required⟩

def threeDocuments : List (Received Simple.Model) :=
  ["d1", "d2", "d3"].map fun id => ⟨Simple.viewersModel, ⟨1, 0⟩, .set,
    .object (some { type := "doc".toList, id := id.toList })⟩

/-- BoltDB refuses to write the second document; the other two are stored. -/
theorem refused_document_isolated :
    Isolates Simple.library boltEngine (boltEngine.refusals (· == 3) "value too large") threeDocuments
      boltEngine.empty :=
  (import_isolates_iff simple_typed (· == 3) "value too large" threeDocuments
    boltEngine.sound_empty).mpr (by decide +kernel)

/-- Postgres refuses to write the second document, and none is stored. -/
theorem refused_document_undoes_import :
    let outcome := (plainEngine.refusals (· == 3) "disk full").transact plainEngine.backend
      (importStream Simple.library threeDocuments (.eof (.ok ⟨⟩))) plainEngine.empty
    outcome.1.isOk = false ∧
      (view plainEngine.backend (Program.lift (TxOp.getObject (μ := Simple.Model) "doc".toList
        "d1".toList)) outcome.2).isOk = false ∧
      ¬ Isolates Simple.library plainEngine (plainEngine.refusals (· == 3) "disk full") threeDocuments
        plainEngine.empty := by
  refine ⟨by decide +kernel, by decide +kernel, fun isolates => ?_⟩
  have harmless := harmless_of_isolates simple_typed plainEngine.sound_empty isolates
  revert harmless
  decide +kernel

end Examples

end Eamerald.Directory
