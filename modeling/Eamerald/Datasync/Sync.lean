import Eamerald.Bolt.Tx
import Eamerald.Datasync.Handlers
import Eamerald.Datasync.Watermark
import Eamerald.Directory.RowKinds
import Eamerald.Store.Transactions

/-! A synchronisation of the directory. The producer receives the export of the hub
and remembers the keys of its rows in a filter, the subscriber stores the rows in one
transaction, the difference stage deletes in another what the filter does not know,
and the watermark is written last. -/

set_option autoImplicit false

namespace Eamerald.Datasync

open Foundation Store Directory

section Modes

def Mode := BitVec 32
deriving DecidableEq

namespace Mode

def unknown : Mode := 0#32

def manifest : Mode := 2#32

def full : Mode := 4#32

def diff : Mode := 8#32

def watermark : Mode := 16#32

def set (mode flag : Mode) : Mode := BitVec.or mode flag

def has (mode flag : Mode) : Bool := decide (BitVec.and mode flag ≠ 0#32)

end Mode

end Modes

section Filters

/-- The cuckoo filter. An insertion answers whether there was room for the key. -/
structure FilterLibrary (φ : Type) where
  newFilter : UInt64 → φ
  insert : GoString → φ → Bool × φ
  lookup : GoString → φ → Bool

/-- A filter that keeps the keys themselves, as long as there is room. -/
def FilterLibrary.exact : FilterLibrary (Nat × List GoString) where
  newFilter size := (size.toNat, [])
  insert key filter :=
    if filter.2.length < filter.1 then (true, filter.1, key :: filter.2) else (false, filter)
  lookup key filter := filter.2.contains key

def Row.key : Row → GoString
  | .object message => objectRowKey (message.getD .zero)
  | .relation message => relationRowKey (message.getD .zero)

def FilterLibrary.insertAll {φ : Type} (filters : FilterLibrary φ) (keys : List GoString) (filter : φ) :
    φ :=
  keys.foldl (fun filter key => (filters.insert key filter).2) filter

end Filters

section Producer

variable {μ φ : Type} (filters : FilterLibrary φ)

/-- A row with the clock and the model it meets, or a message of another kind. -/
inductive Incoming (μ : Type) where
  | row (applied : Applied μ)
  | unknown

structure ExportStream (μ : Type) where
  messages : List (Incoming μ)
  ending : Except Err Unit := .ok ()

def produce : List (Incoming μ) → Option φ → List (Applied μ) × Option φ
  | [], filter => ([], filter)
  | .unknown :: rest, filter => produce rest filter
  | .row applied :: rest, filter =>
      let produced := produce rest
        (filter.map fun filter => (filters.insert applied.row.key filter).2)
      (applied :: produced.1, produced.2)

def startFrom (mode : Mode) (watermark : Watermark) : Timestamp :=
  if mode.has .watermark then watermark.timestamp else .zero

def initialFilter (mode : Mode) (watermark : Watermark) : Option φ :=
  if mode.has .diff then some (filters.newFilter watermark.getFilterSize) else none

end Producer

section Subscriber

variable {μ : Type} (library : Library μ)

def Row.updatedAt : Row → Timestamp
  | .object message => (message.bind Object.updatedAt).getD .zero
  | .relation message => (message.bind Relation.updatedAt).getD .zero

/-- The set handlers with the message as they leave it: its metadata is replaced in place. -/
def applyInPlace (applied : Applied μ) : Tx μ Row :=
  match applied.row with
  | .object object => do
      let object ← Program.done (validateObject library applied.model object)
      return .object (some (← (objectKind library).storeInPlace applied.now object))
  | .relation relation => do
      let relation ← Program.done (validateRelation library applied.model relation)
      return .relation (some (← (relationKind library).storeInPlace applied.now relation))

def subscribe : List (Applied μ) → Timestamp → Tx μ Timestamp
  | [], ts => return ts
  | applied :: rest, ts => do
      match ← (applyInPlace library applied).attempt with
      | .ok row => subscribe rest (maxTS ts row.updatedAt)
      | .error _ => subscribe rest ts

end Subscriber

structure TxOutcome where
  begins : Except Err PUnit := .ok ⟨⟩
  commits : Except Err PUnit := .ok ⟨⟩

/-- The hub, the two transactions, the model of the difference stage, and the watermark file. -/
structure Run (μ : Type) where
  mode : Mode
  hub : Timestamp → ExportStream μ
  subscriberTx : TxOutcome := {}
  diffModel : μ
  diffTx : TxOutcome := {}
  fileWrite : FileWrite := .written

structure Edge (ω : Type) where
  db : Bolt.BoltDB ω
  file : WatermarkFile := none

section Stages

variable {ω μ φ : Type} [Wire ω μ] (library : Library μ) (filters : FilterLibrary φ)

def errNoFilter : Err := .engine "filter not initialized"

def Run.stream (run : Run μ) (file : WatermarkFile) : ExportStream μ :=
  run.hub (startFrom run.mode (getWatermark file))

def Run.produced (run : Run μ) (file : WatermarkFile) : List (Applied μ) × Option φ :=
  produce filters (run.stream file).messages (initialFilter filters run.mode (getWatermark file))

def subscriberStage (run : Run μ) (rows : List (Applied μ)) (db : Bolt.BoltDB ω) :
    Except Err Timestamp × Bolt.BoltDB ω :=
  withTx run.subscriberTx.begins run.subscriberTx.commits Bolt.backend
    (subscribe library rows .zero) db

def Run.subscribed (run : Run μ) (edge : Edge ω) : Bolt.BoltDB ω :=
  (subscriberStage library run (run.produced filters edge.file).1 edge.db).2

def diffStage (run : Run μ) (filter : Option φ) (db : Bolt.BoltDB ω) :
    Except Err PUnit × Bolt.BoltDB ω :=
  match filter with
  | none => (.error errNoFilter, db)
  | some filter =>
      withTx run.diffTx.begins run.diffTx.commits Bolt.backend
        (diff library run.diffModel fun key => filters.lookup key filter) db

def finishSync (run : Run μ) (filter : Option φ) (ts : Timestamp) (edge : Edge ω) :
    Except Err Unit × Edge ω :=
  let stage := if run.mode.has .diff then diffStage library filters run filter edge.db
    else (.ok ⟨⟩, edge.db)
  match stage with
  | (.error error, db) => (.error error, { edge with db })
  | (.ok _, db) =>
      let written := setWatermark run.fileWrite ts db edge.file
      (written.1, { db, file := written.2 })

/-- A run in which the subscriber takes every row that the producer sends. -/
def syncDirectory (run : Run μ) (edge : Edge ω) : Except Err Unit × Edge ω :=
  let produced := run.produced filters edge.file
  match subscriberStage library run produced.1 edge.db with
  | (.error error, db) => (.error error, { edge with db })
  | (.ok ts, db) =>
      match (run.stream edge.file).ending with
      | .error error => (.error error, { edge with db })
      | .ok _ => finishSync library filters run produced.2 ts { edge with db }

end Stages

section Equations

variable {μ σ : Type} (library : Library μ) (rows : List (Applied μ)) (applied : Applied μ)

theorem apply_eq : apply library applied = (applyInPlace library applied).bind fun _ => .done (.ok ⟨⟩) := by
  unfold apply applyInPlace
  cases applied.row with
  | object message =>
      dsimp only [objectSetHandler]
      cases validateObject library applied.model message with
      | error error => rfl
      | ok object =>
          simp only [storeObject_eq, RowKind.store_eq, Program.bind_eq, Program.bind_assoc]
          rfl
  | relation message =>
      dsimp only [relationSetHandler]
      cases validateRelation library applied.model message with
      | error error => rfl
      | ok relation =>
          simp only [storeRelation_eq, RowKind.store_eq, Program.bind_eq, Program.bind_assoc]
          rfl

def appliedRows (backend : Backend μ σ) : List (Applied μ) → σ → List (Applied μ)
  | [], _ => []
  | applied :: rest, state =>
      let handled := (apply library applied).run backend state
      if handled.1.isOk then applied :: appliedRows backend rest handled.2
      else appliedRows backend rest handled.2

variable {library} {backend : Backend μ σ}

theorem run_apply (state : σ) : (apply library applied).run backend state =
      (((applyInPlace library applied).run backend state).1.map fun _ => ⟨⟩,
        ((applyInPlace library applied).run backend state).2) := by
  rw [apply_eq, Program.run_bind]
  cases (applyInPlace library applied).run backend state with
  | mk outcome after =>
      cases outcome with
      | error error => rfl
      | ok row => rfl

theorem updatedAt_applyInPlace {applied : Applied μ} {state after : σ} {row : Row}
    (ran : (applyInPlace library applied).run backend state = (.ok row, after)) :
    row.updatedAt = applied.now := by
  unfold applyInPlace at ran
  split at ran
  · obtain ⟨object, _, _, continued⟩ := Program.run_bind_ok ran
    obtain ⟨left, _, stored, finished⟩ := Program.run_bind_ok continued
    cases finished
    have stamped : left.updatedAt = some applied.now := RowKind.updatedAt_storeInPlace stored
    simp [Row.updatedAt, stamped]
  · obtain ⟨relation, _, _, continued⟩ := Program.run_bind_ok ran
    obtain ⟨left, _, stored, finished⟩ := Program.run_bind_ok continued
    cases finished
    have stamped : left.updatedAt = some applied.now := RowKind.updatedAt_storeInPlace stored
    simp [Row.updatedAt, stamped]

def largestClock (rows : List (Applied μ)) (ts : Timestamp) : Timestamp :=
  rows.foldl (fun ts applied => maxTS ts applied.now) ts

theorem subscriber_cons (rest : List (Applied μ)) (state : σ) :
    (subscriber library (applied :: rest)).run backend state =
      (subscriber library rest).run backend ((apply library applied).run backend state).2 :=
  Program.run_each_attempt_cons backend applied rest (apply library) state

theorem subscriber_append (more : List (Applied μ)) (state : σ) :
    ((subscriber library (rows ++ more)).run backend state).2 =
      ((subscriber library more).run backend ((subscriber library rows).run backend state).2).2 := by
  induction rows generalizing state with
  | nil => rfl
  | cons applied rest ih =>
      rw [List.cons_append, subscriber_cons, subscriber_cons]
      exact ih _

theorem appliedRows_append (more : List (Applied μ)) (state : σ) :
    appliedRows library backend (rows ++ more) state = appliedRows library backend rows state ++
      appliedRows library backend more ((subscriber library rows).run backend state).2 := by
  induction rows generalizing state with
  | nil => rfl
  | cons applied rest ih =>
      rw [subscriber_cons]
      simp only [List.cons_append, appliedRows, ih]
      split
      · rfl
      · rfl

theorem run_subscribe (ts : Timestamp) (state : σ) : (subscribe library rows ts).run backend state =
      (.ok (largestClock (appliedRows library backend rows state) ts),
        ((subscriber library rows).run backend state).2) := by
  induction rows generalizing ts state with
  | nil => rfl
  | cons applied rest ih =>
      rw [subscriber_cons]
      simp only [subscribe, appliedRows, Program.bind_eq, Program.run_bind, Program.run_attempt,
        run_apply]
      cases ran : (applyInPlace library applied).run backend state with
      | mk outcome after =>
          cases outcome with
          | error error => exact ih ts after
          | ok row =>
              dsimp only
              rw [updatedAt_applyInPlace ran]
              exact ih (maxTS ts applied.now) after

end Equations

section Outcomes

variable {ω μ φ : Type} [Wire ω μ] {library : Library μ} {filters : FilterLibrary φ} {run : Run μ}
  {edge after : Edge ω} {db : Bolt.BoltDB ω} {ts : Timestamp}

theorem subscriberStage_clean (clean : run.subscriberTx = {}) (rows : List (Applied μ)) (db : Bolt.BoltDB ω) :
    subscriberStage library run rows db = (.ok (largestClock (appliedRows library Bolt.backend rows db) .zero),
        ((subscriber library rows).run Bolt.backend db).2) := by
  unfold subscriberStage
  rw [clean]
  exact withTx_clean (run_subscribe rows .zero db)

theorem subscribed_clean (clean : run.subscriberTx = {}) : run.subscribed library filters edge =
      ((subscriber library (run.produced filters edge.file).1).run Bolt.backend edge.db).2 :=
  congrArg Prod.snd (subscriberStage_clean clean _ _)

theorem subscriberStage_ok {rows : List (Applied μ)} {written : Bolt.BoltDB ω}
    (ran : subscriberStage library run rows db = (.ok ts, written)) :
    ts = largestClock (appliedRows library Bolt.backend rows db) .zero ∧
      written = ((subscriber library rows).run Bolt.backend db).2 := by
  obtain ⟨_, performed⟩ := withTx_ok ran
  rw [run_subscribe] at performed
  cases performed
  exact ⟨rfl, rfl⟩

theorem setWatermark_ok {write : FileWrite}
    {file written : WatermarkFile} (ran : setWatermark write ts db file = (.ok (), written)) :
    ∃ watermark, written = some watermark ∧ watermark.timestamp = max (getWatermark file).timestamp ts := by
  cases write with
  | notCreated error | cut error => cases ran
  | written =>
      cases ran
      exact ⟨_, rfl, maxTS_eq_max _ _⟩

theorem setWatermark_error {write : FileWrite} {file written : WatermarkFile} {error : Err}
    (ran : setWatermark write ts db file = (.error error, written)) : written = file ∨ written = none := by
  cases write with
  | written => cases ran
  | notCreated error =>
      cases ran
      exact .inl rfl
  | cut error =>
      cases ran
      exact .inr rfl

theorem syncDirectory_ok (ran : syncDirectory library filters run edge = (.ok (), after)) :
    ∃ ts stored, subscriberStage library run (run.produced filters edge.file).1 edge.db = (.ok ts, stored) ∧
      (run.stream edge.file).ending = .ok () ∧
      (if run.mode.has .diff then diffStage library filters run (run.produced filters edge.file).2 stored
        else (.ok ⟨⟩, stored)) = (.ok ⟨⟩, after.db) ∧
      setWatermark run.fileWrite ts after.db edge.file = (.ok (), after.file) := by
  unfold syncDirectory at ran
  cases first : subscriberStage library run (run.produced filters edge.file).1 edge.db with
  | mk outcome stored =>
      simp only [first] at ran
      cases outcome with
      | error error => cases ran
      | ok ts =>
          dsimp only at ran
          cases ended : (run.stream edge.file).ending with
          | error error =>
              rw [ended] at ran
              cases ran
          | ok _ =>
              rw [ended] at ran
              refine ⟨ts, stored, rfl, rfl, ?_⟩
              simp only [finishSync] at ran
              split at ran
              · cases ran
              · rename_i db staged
                obtain ⟨outcome, same⟩ := Prod.mk.inj ran
                cases same
                exact ⟨staged, Prod.ext outcome rfl⟩

theorem file_of_syncDirectory_error {error : Err}
    (ran : syncDirectory library filters run edge = (.error error, after)) :
    after.file = edge.file ∨ after.file = none := by
  unfold syncDirectory at ran
  dsimp only at ran
  split at ran
  · cases ran
    exact .inl rfl
  · split at ran
    · cases ran
      exact .inl rfl
    · simp only [finishSync] at ran
      split at ran
      · cases ran
        exact .inl rfl
      · obtain ⟨failed, same⟩ := Prod.mk.inj ran
        cases same
        exact setWatermark_error (Prod.ext failed rfl)

end Outcomes

end Eamerald.Datasync
