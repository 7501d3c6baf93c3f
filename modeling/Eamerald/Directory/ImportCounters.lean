import Eamerald.Directory.Interruption
import Eamerald.Foundation.Counting

/-! The counters that an import sends when its stream ends. A request is counted where its
handler is called, so that a request whose opcode no handler takes is reported by a status
message and appears in no counter. -/

set_option autoImplicit false

namespace Eamerald.Directory

open Foundation Store

inductive RowType where
  | object
  | relation
deriving DecidableEq, Repr

def Counters.get (counters : Counters) : RowType → ImportCounter
  | .object => counters.object
  | .relation => counters.relation

/-- The type of the row in a message, which the message has even if the row is nil. -/
def ImportRequest.rowType (request : ImportRequest) : Option RowType :=
  match request.message with
  | .object _ => some .object
  | .relation _ => some .relation
  | .unset => none

def ImportRequest.carries (request : ImportRequest) (row : RowType) : Bool :=
  request.rowType = some row

def RowType.handles : RowType → Opcode → Bool
  | _, .set => true
  | _, .delete => true
  | .object, .deleteWithRelations => true
  | .relation, .deleteWithRelations => false
  | _, .other _ => false

/-- The counter of a row type agrees with the requests received and the status messages sent. -/
structure Accounts (row : RowType) (requests : List ImportRequest) (counters : Counters)
    (statuses : List ImportStatus) : Prop where
  received : (counters.get row).recv = requests.countP (·.carries row)
  balanced : (counters.get row).recv =
    (counters.get row).set + (counters.get row).delete + (counters.get row).error
  reported : (counters.get row).error = statuses.countP (·.req.carries row)

section Steps

variable {μ : Type} (row : RowType)

def entryCounted (entry : Received μ × Except Err Unit) : Bool :=
  row.handles entry.1.request.opCode && entry.1.request.carries row

theorem get_countEntry (entry : Received μ × Except Err Unit) (counters : Counters) :
    (countEntry entry counters).get row = if entryCounted row entry then
        updateCounter (counters.get row) entry.1.request.opCode entry.2 else counters.get row := by
  obtain ⟨⟨model, now, opCode, message⟩, outcome⟩ := entry
  cases row <;> cases message <;> cases opCode <;> rfl

theorem recv_updateCounter (counter : ImportCounter) (opCode : Opcode) (outcome : Except Err Unit) :
    (updateCounter counter opCode outcome).recv = counter.recv.succ := by
  cases outcome <;> cases opCode <;> rfl

theorem error_updateCounter (counter : ImportCounter) (opCode : Opcode) (outcome : Except Err Unit) :
    (updateCounter counter opCode outcome).error =
      if outcome.isOk then counter.error else counter.error.succ := by
  cases outcome <;> cases opCode <;> rfl

def ImportCounter.Balanced (counter : ImportCounter) : Prop :=
  counter.recv = counter.set + counter.delete + counter.error

theorem balanced_updateCounter {counter : ImportCounter} {opCode : Opcode}
    (handled : row.handles opCode = true) (balanced : counter.Balanced)
    (outcome : Except Err Unit) : (updateCounter counter opCode outcome).Balanced := by
  unfold ImportCounter.Balanced at *
  cases opCode with
  | other code => cases row <;> cases handled
  | _ => cases outcome <;> simp only [updateCounter] <;> omega

end Steps

section Runs

variable {μ : Type} (row : RowType) (entries : List (Received μ × Except Err Unit))

def entryCounters : Counters :=
  entries.foldl (fun counters entry => countEntry entry counters) {}

theorem recv_entryCounters : ((entryCounters entries).get row).recv = entries.countP (entryCounted row) := by
  have moves (counters : Counters) (entry : Received μ × Except Err Unit) :
      ((countEntry entry counters).get row).recv =
        if entryCounted row entry then (counters.get row).recv.succ
        else (counters.get row).recv := by
    rw [get_countEntry]
    split
    · exact recv_updateCounter ..
    · rfl
  refine (foldl_iterate (fun counters : Counters => (counters.get row).recv) _ moves entries {}).trans ?_
  cases row <;> simp [Counters.get, Nat.succ_iterate]

theorem error_entryCounters : ((entryCounters entries).get row).error =
      entries.countP fun entry => entryCounted row entry && !entry.2.isOk := by
  have moves (counters : Counters) (entry : Received μ × Except Err Unit) :
      ((countEntry entry counters).get row).error =
        if entryCounted row entry && !entry.2.isOk then (counters.get row).error.succ
        else (counters.get row).error := by
    rw [get_countEntry]
    cases entryCounted row entry with
    | false => rfl
    | true =>
        refine (error_updateCounter ..).trans ?_
        cases entry.2.isOk <;> rfl
  refine (foldl_iterate (fun counters : Counters => (counters.get row).error) _ moves entries {}).trans ?_
  cases row <;> simp [Counters.get, Nat.succ_iterate]

theorem balanced_entryCounters : ((entryCounters entries).get row).Balanced := by
  induction entries using List.reverseRecOn with
  | nil => cases row <;> rfl
  | append_singleton rest entry ih =>
      rw [entryCounters, List.foldl_concat, get_countEntry]
      split
      · next here =>
          exact balanced_updateCounter row (Bool.and_eq_true_iff.mp here).1 ih entry.2
      · exact ih

/-- The status messages about rows of the type: one for each failed request whose error has a
status. -/
theorem countP_entryStatus : (entries.filterMap entryStatus).countP (·.req.carries row) =
      entries.countP fun entry =>
        (entryStatus entry).isSome && (!entry.2.isOk && entry.1.request.carries row) := by
  rw [List.countP_filterMap]
  refine congrArg (entries.countP ·) (funext fun entry => ?_)
  obtain ⟨received, outcome⟩ := entry
  cases outcome with
  | ok value => rfl
  | error error =>
      cases status : error.hasStatus with
      | false => simp [entryStatus, importStatus?, status]
      | true => simp [entryStatus, importStatus?, status, Except.isOk, Except.toBool]

theorem isSome_entryStatus (received : Received μ) (error : Err) :
    (entryStatus (received, .error error)).isSome = error.hasStatus := by
  cases status : error.hasStatus <;> simp [entryStatus, importStatus?, status]

variable {row entries}

theorem received_iff : ((entryCounters entries).get row).recv =
        (entries.map (·.1.request)).countP (·.carries row) ↔
      ∀ entry ∈ entries, entry.1.request.carries row = true → row.handles entry.1.request.opCode = true := by
  rw [recv_entryCounters, List.countP_map]
  exact countP_and_eq_iff

theorem reported_iff (applies : ∀ entry ∈ entries, entry.1.request.carries row = true →
      row.handles entry.1.request.opCode = true) : ((entryCounters entries).get row).error =
        (entries.filterMap entryStatus).countP (·.req.carries row) ↔
      ∀ entry ∈ entries, entry.1.request.carries row = true →
        ∀ error, entry.2 = .error error → error.hasStatus = true := by
  have errors : ((entryCounters entries).get row).error =
      entries.countP fun entry => !entry.2.isOk && entry.1.request.carries row := by
    rw [error_entryCounters]
    refine List.countP_congr fun entry member => ?_
    have applied := applies entry member
    simp only [entryCounted, Bool.and_eq_true]
    tauto
  rw [errors, countP_entryStatus, eq_comm, countP_and_eq_iff]
  refine forall₂_congr fun entry member => ?_
  obtain ⟨received, outcome⟩ := entry
  cases outcome with
  | ok value => simp [Except.isOk, Except.toBool]
  | error error => simp [isSome_entryStatus, Except.isOk, Except.toBool]

end Runs

section Import

variable {μ σ : Type} (library : Library μ) (backend : Backend μ σ)

def handledTurns (turns : List (Turn μ)) (state : σ) : List (Received μ × Except Err Unit) :=
  (consume backend (handleReceived library) (turns.filterMap Turn.request?) state).1

/-- A request whose opcode applies to its row, and which did not fail without a status. -/
def Accountable (row : RowType) (entry : Received μ × Except Err Unit) : Prop :=
  row.handles entry.1.request.opCode = true ∧
    ∀ error, entry.2 = .error error → error.hasStatus = true

theorem accounts_entries (row : RowType) (entries : List (Received μ × Except Err Unit)) :
    Accounts row (entries.map (·.1.request)) (entryCounters entries) (entries.filterMap entryStatus) ↔
      ∀ entry ∈ entries, entry.1.request.carries row = true → Accountable row entry := by
  constructor
  · rintro ⟨received, -, reported⟩ entry member carried
    have applies := received_iff.mp received
    exact ⟨applies entry member carried, (reported_iff applies).mp reported entry member carried⟩
  · intro accountable
    have applies := fun entry member carried => (accountable entry member carried).1
    refine ⟨received_iff.mpr applies, balanced_entryCounters row entries, ?_⟩
    exact (reported_iff applies).mpr fun entry member carried => (accountable entry member carried).2

/-- The counters of an import whose stream ends normally agree with the requests that carried a
row of the type and with the status messages about them, on any store, exactly if each of those
requests has an opcode that applies to its row and none of them fails without a status. -/
theorem import_counters_account (row : RowType) (turns : List (Turn μ)) (state : σ) :
    ∃ counters statuses after,
      (importCall library turns (.eof (.ok ⟨⟩))).run backend state =
          (.ok (counters, statuses), after) ∧
        (Accounts row ((turns.filterMap Turn.request?).map (·.request)) counters statuses ↔
          ∀ entry ∈ handledTurns library backend turns state,
            entry.1.request.carries row = true → Accountable row entry) := by
  refine ⟨_, _, _, run_receiveLoop (.eof (.ok ⟨⟩)) turns {} [] state, ?_⟩
  have requests : (turns.filterMap Turn.request?).map (·.request) =
      (handledTurns library backend turns state).map (·.1.request) := by
    have items : (handledTurns library backend turns state).map Prod.fst =
        turns.filterMap Turn.request? := consume_items _ state
    rw [← items, List.map_map]
    rfl
  rw [requests, List.nil_append]
  exact accounts_entries row (handledTurns library backend turns state)

/-- One object is sent with an opcode that no handler takes: the client is told of one error, and
the counter of objects says that none was received. -/
theorem unknown_opcode_uncounted :
    let turns : List (Turn Simple.Model) :=
      [.request ⟨{ objectTypes := ["d".toList] }, ⟨1, 0⟩, ⟨.other 0, .object (some
        { type := "d".toList, id := "1".toList })⟩⟩]
    let outcome := ((importCall Simple.library turns (.eof (.ok ⟨⟩))).run Bolt.backend
      (Bolt.emptyDB : Bolt.BoltDB (Blob Simple.Model))).1
    outcome.toOption.map (fun sent => (sent.1, sent.2.countP (·.req.carries .object))) =
        some ({}, 1) ∧
      (turns.filterMap Turn.request?).map (·.request.carries .object) = [true] := by
  decide +kernel

end Import

end Eamerald.Directory
