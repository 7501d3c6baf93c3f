import Eamerald.Datasync.DiffProperties
import Eamerald.Datasync.PipelineProperties

/-! Synchronisations that fail. Nothing is deleted from the store of the edge and the
watermark stays, whatever failed. A run whose subscriber cannot even begin its transaction
returns only if the channel has room for the whole export. -/

set_option autoImplicit false

namespace Eamerald.Datasync

open Foundation Store Directory

section Keeping

variable {ω μ : Type} [Wire ω μ]

def slots : Entry → List (Bolt.Path × Bolt.Key × ω)
  | .object message => [(.objects, Bolt.objectKey message.type message.id, Wire.object.marshal message)]
  | .relation message =>
      [(.relationsObj, Bolt.objKeyOf message.ident, Wire.relation.marshal message),
        (.relationsSub, Bolt.subKeyOf message.ident, Wire.relation.marshal message)]

/-- The value is that of a row with the content of one of the entries. -/
def ValueOf (entries : List Entry) (path : Bolt.Path) (key : Bolt.Key) (value : ω) : Prop :=
  ∃ entry ∈ entries, ∃ stored : Entry, stored.bare = entry.bare ∧ (path, key, value) ∈ slots stored

/-- Every value in the first store is still in the second, or one of the entries lies
under its key. -/
def Kept (entries : List Entry) (before after : Bolt.BoltDB ω) : Prop :=
  ∀ path bucket, before.bucket path = some bucket →
    ∃ left, after.bucket path = some left ∧ ∀ key value, bucket[key]? = some value →
      ∃ now, left[key]? = some now ∧ (now = value ∨ ValueOf entries path key now)

variable {entries : List Entry} {before middle after db : Bolt.BoltDB ω}

theorem Kept.refl (db : Bolt.BoltDB ω) : Kept entries db db :=
  fun _ bucket found => ⟨bucket, found, fun _ value there => ⟨value, there, .inl rfl⟩⟩

theorem Kept.trans (first : Kept entries before middle) (second : Kept entries middle after) :
    Kept entries before after := by
  intro path bucket found
  obtain ⟨between, there, keeps⟩ := first path bucket found
  obtain ⟨left, last, keepsAgain⟩ := second path between there
  refine ⟨left, last, fun key value stored => ?_⟩
  obtain ⟨now, present, origin⟩ := keeps key value stored
  obtain ⟨later, remains, lastOrigin⟩ := keepsAgain key now present
  refine ⟨later, remains, ?_⟩
  rcases lastOrigin with rfl | replaced
  · exact origin
  · exact .inr replaced

theorem kept_set {M : Type} {codec : Codec ω M} {path : Bolt.Path} {key : Bolt.Key} {message : M}
    (slot : ValueOf entries path key (codec.marshal message)) (db : Bolt.BoltDB ω) :
    Kept entries db (Bolt.set codec path key message db).2 := by
  rcases Bolt.set_state codec path key message db with same | ⟨bucket, found, written⟩
  · rw [same]
    exact .refl db
  · rw [written]
    intro other old there
    by_cases same : other = path
    · subst same
      cases found.symm.trans there
      refine ⟨_, Bolt.bucket_assign_self db other _, fun place value stored => ?_⟩
      by_cases here : key = place
      · subst here
        exact ⟨_, Std.ExtTreeMap.getElem?_insert_self, .inr slot⟩
      · refine ⟨value, ?_, .inl rfl⟩
        rw [Std.ExtTreeMap.getElem?_insert, if_neg (by simpa using here)]
        exact stored
    · refine ⟨old, (Bolt.bucket_assign_of_ne db _ same).trans there, fun place value stored => ?_⟩
      exact ⟨value, stored, .inl rfl⟩

theorem kept_setRelation {relation : Relation} {entry : Entry} (member : entry ∈ entries)
    (content : (Entry.relation relation).bare = entry.bare) (db : Bolt.BoltDB ω) :
    Kept entries db (Bolt.setRelation relation db).2 := by
  have first : Kept entries db
      (Bolt.set Wire.relation .relationsObj (Bolt.objKeyOf relation.ident) relation db).2 :=
    kept_set ⟨entry, member, .relation relation, content, List.mem_cons_self⟩ db
  unfold Bolt.setRelation
  cases performed : Bolt.set Wire.relation .relationsObj (Bolt.objKeyOf relation.ident) relation db with
  | mk outcome written =>
      rw [performed] at first
      cases outcome with
      | error error => exact first
      | ok stored =>
          have second : Kept entries written
              (Bolt.set Wire.relation .relationsSub (Bolt.subKeyOf relation.ident) relation written).2 :=
            kept_set ⟨entry, member, .relation relation, content,
              List.mem_cons_of_mem _ List.mem_cons_self⟩ written
          dsimp only
          cases again : Bolt.set Wire.relation .relationsSub (Bolt.subKeyOf relation.ident) relation
              written with
          | mk outcome rewritten =>
              rw [again] at second
              cases outcome <;> exact first.trans second

variable {library : Library μ}

theorem kept_rowStore {R I : Type} {kind : RowKind μ R I} {row : R}
    (reads : ∀ ident (state : Bolt.BoltDB ω), (Bolt.backend.exec (kind.read ident) state).2 = state)
    (writes : ∀ written, kind.content written = kind.content row →
      Kept entries db (Bolt.backend.exec (kind.write written) db).2) (now : Timestamp) :
    Kept entries db ((kind.store now row).run Bolt.backend db).2 := by
  rcases RowKind.store_cases reads now row db with
    ⟨_, _, _, ran⟩ | ⟨_, _, _, ran⟩ | ⟨written, content, _, _, ran⟩
  · rw [ran]
    exact .refl db
  · rw [ran]
    exact .refl db
  · rw [ran]
    exact writes written content

theorem kept_store {entry : Entry} (member : entry ∈ entries) (now : Timestamp) (db : Bolt.BoltDB ω) :
    Kept entries db ((entry.store library now).run Bolt.backend db).2 := by
  cases entry with
  | object message =>
      rw [Entry.store, storeObject_eq]
      refine kept_rowStore (Bolt.objectTable library).reads (fun written content => ?_) now
      exact kept_set ⟨_, member, .object written, congrArg Entry.object content, List.mem_cons_self⟩ db
  | relation message =>
      rw [Entry.store, storeRelation_eq]
      refine kept_rowStore (Bolt.relationTable library).reads (fun written content => ?_) now
      exact kept_setRelation member (congrArg Entry.relation content) db

theorem kept_subscriber {rows : List (Applied μ)}
    (listed : ∀ applied ∈ rows, applied.row.entry ∈ entries) (db : Bolt.BoltDB ω) :
    Kept entries db ((subscriber library rows).run Bolt.backend db).2 := by
  induction rows generalizing db with
  | nil => exact .refl db
  | cons applied rest ih =>
      rw [subscriber_cons]
      have later := ih fun other member => listed other (List.mem_cons_of_mem _ member)
      cases valid : applied.row.valid library applied.model with
      | false =>
          obtain ⟨error, ran⟩ : ∃ error, (apply library applied).run Bolt.backend db = (.error error, db) :=
            run_apply_of_refused valid db
          rw [ran]
          exact later db
      | true =>
          rw [run_apply_of_valid valid]
          exact (kept_store (listed applied List.mem_cons_self) applied.now db).trans (later _)

end Keeping

section Failures

variable {ω μ φ : Type} [Wire ω μ] (library : Library μ) (filters : FilterLibrary φ) (run : Run μ)
  (edge : Edge ω)

/-- The export breaks off, or one of the two transactions fails. -/
def Run.Fails : Prop :=
  (run.stream edge.file).ending.isOk = false ∨
    (subscriberStage library run (run.produced filters edge.file).1 edge.db).1.isOk = false ∨
    run.mode.has .diff = true ∧ (diffStage library filters run (run.produced filters edge.file).2
      (run.subscribed library filters edge)).1.isOk = false

/-- Every schedule comes to an end, with an error, every row kept and the watermark file as it was. -/
structure Run.FailsSafely : Prop where
  ends : ∃ bound, ∀ events final,
    (run.stages library filters edge).run (run.started filters edge) events = some final →
      events.length ≤ bound
  safe : ∀ events final,
    (run.stages library filters edge).run (run.started filters edge) events = some final →
      (run.stages library filters edge).Stuck final →
      (∃ error, final.result = some (.error error)) ∧
        Kept (run.exported filters edge) edge.db final.edge.db ∧ final.edge.file = edge.file

variable {library filters run edge}

theorem kept_subscribed : Kept (run.exported filters edge) edge.db (run.subscribed library filters edge) := by
  unfold Run.subscribed subscriberStage withTx
  cases run.subscriberTx.begins with
  | error error => exact .refl _
  | ok _ =>
      dsimp only
      rw [run_subscribe]
      cases run.subscriberTx.commits with
      | error error => exact .refl _
      | ok _ => exact kept_subscriber (fun applied member => List.mem_map.mpr ⟨applied, member, rfl⟩) _

theorem diffStage_error {filter : Option φ} {db after : Bolt.BoltDB ω} {error : Err}
    (ran : diffStage library filters run filter db = (.error error, after)) : after = db := by
  cases filter with
  | none => exact (Prod.mk.inj ran).2.symm
  | some filter => exact withTx_error ran

theorem syncDirectory_fails (fails : run.Fails library filters edge) :
    (∃ error, (syncDirectory library filters run edge).1 = .error error) ∧
      Kept (run.exported filters edge) edge.db (syncDirectory library filters run edge).2.db ∧
      (syncDirectory library filters run edge).2.file = edge.file := by
  have kept : Kept (run.exported filters edge) edge.db (run.subscribed library filters edge) :=
    kept_subscribed
  unfold Run.Fails at fails
  unfold Run.subscribed at fails kept
  unfold syncDirectory
  dsimp only
  cases staged : subscriberStage library run (run.produced filters edge.file).1 edge.db with
  | mk outcome stored =>
      rw [staged] at fails kept
      cases outcome with
      | error error => exact ⟨⟨error, rfl⟩, kept, rfl⟩
      | ok ts =>
          dsimp only at fails kept ⊢
          cases ended : (run.stream edge.file).ending with
          | error error => exact ⟨⟨error, rfl⟩, kept, rfl⟩
          | ok _ =>
              rw [ended] at fails
              rcases fails with broken | broken | ⟨diffs, broken⟩
              · cases broken
              · cases broken
              · cases performed : diffStage library filters run (run.produced filters edge.file).2
                    stored with
                | mk outcome left =>
                    rw [performed] at broken
                    cases outcome with
                    | ok _ => cases broken
                    | error error =>
                        cases diffStage_error performed
                        simp only [finishSync, diffs, ↓reduceIte, performed]
                        exact ⟨⟨error, rfl⟩, kept, trivial⟩

/-- A run that fails ends safely on every schedule exactly if its subscriber could begin its
transaction or the channel has room for all of the export. -/
theorem failed_sync_is_safe_iff (fails : run.Fails library filters edge) :
    run.FailsSafely library filters edge ↔
      run.subscriberTx.begins.isOk ∨ (run.exported filters edge).length ≤ channelSize := by
  have size : (run.exported filters edge).length = (run.produced filters edge.file).1.length :=
    List.length_map _
  rw [size]
  constructor
  · intro safely
    by_contra blocked
    rw [not_or] at blocked
    obtain ⟨reason, failed⟩ : ∃ reason, run.subscriberTx.begins = .error reason := by
      cases begun : run.subscriberTx.begins with
      | ok _ => exact absurd (by rw [begun]; rfl) blocked.1
      | error reason => exact ⟨reason, rfl⟩
    obtain ⟨events, final, ran, stuck, unfinished⟩ :=
      hangs_of_overflow library failed (not_le.mp blocked.2)
    obtain ⟨⟨error, ended⟩, _⟩ := safely.safe events final ran stuck
    cases unfinished.symm.trans ended
  · intro drains
    refine ⟨⟨_, fun events final ran => length_le_of_stages ran⟩, fun events final ran stuck => ?_⟩
    obtain ⟨taken, flows⟩ := flows_run ran
    obtain ⟨outcome, ended⟩ := flows.progress stuck drains
    obtain ⟨same, agrees⟩ := agrees_with_syncDirectory ran ended
    obtain ⟨⟨error, failed⟩, kept, file⟩ := syncDirectory_fails fails
    rw [failed] at agrees
    rw [same]
    refine ⟨?_, kept, file⟩
    cases outcome with
    | ok _ => cases agrees
    | error error => exact ⟨error, ended⟩

def brokenExport : Run Simple.Model :=
  { oneDocument with
    hub := fun _ => {
      messages := [.row (documentRow { type := "doc".toList, id := "b".toList })]
      ending := .error (.engine "stream reset") } }

theorem broken_export_is_safe :
    brokenExport.Fails Simple.library .exact (syncDirectory Simple.library .exact oneDocument newEdge).2 ∧
      brokenExport.FailsSafely Simple.library .exact
        (syncDirectory Simple.library .exact oneDocument newEdge).2 :=
  ⟨.inl rfl, (failed_sync_is_safe_iff (.inl rfl)).mpr (.inl rfl)⟩

def closedStore (objects : List Object) : Run Simple.Model :=
  { exportOf objects with subscriberTx := { begins := .error (.engine "database not open") } }

theorem hangs_of_closedStore {objects : List Object} (overflow : channelSize < objects.length) :
    (closedStore objects).Fails Simple.library .exact newEdge ∧
      ∃ events final, ((closedStore objects).stages Simple.library .exact newEdge).run
          ((closedStore objects).started .exact newEdge) events = some final ∧
        ((closedStore objects).stages Simple.library .exact newEdge).Stuck final ∧ final.result = none := by
  refine ⟨.inr (.inl rfl), hangs_of_overflow Simple.library rfl ?_⟩
  have rows := produced_exportOf objects
  rw [← List.length_map documentRow, ← rows] at overflow
  exact overflow

/-- The hub has one document more than the channel has room for, and the run does not return. -/
theorem closed_store_hangs :
    (closedStore (List.replicate 10001 { type := "doc".toList, id := "a".toList })).Fails
        Simple.library .exact newEdge ∧
      ∃ events final,
        ((closedStore (List.replicate 10001 { type := "doc".toList, id := "a".toList })).stages
            Simple.library .exact newEdge).run
          ((closedStore (List.replicate 10001 { type := "doc".toList, id := "a".toList })).started
            .exact newEdge) events = some final ∧
        ((closedStore (List.replicate 10001 { type := "doc".toList, id := "a".toList })).stages
          Simple.library .exact newEdge).Stuck final ∧
        final.result = none :=
  hangs_of_closedStore (by rw [List.length_replicate]; decide)

end Failures

section Progress

variable {ω μ φ : Type}

def Pipeline.Returned (state : Pipeline ω μ φ) : Prop :=
  state.producer.isSome ∧ ∃ outcome, state.subscriber = .returned outcome

def PipelineEvent.ofStage : PipelineEvent → Bool
  | .finish => false
  | _ => true

variable [Wire ω μ] {library : Library μ} {filters : FilterLibrary φ} {run : Run μ} {edge : Edge ω}
  {state : Pipeline ω μ φ} {taken : List (Applied μ)}

theorem Flows.returned_of_blocked (flows : Flows library filters run edge taken state)
    (drains : run.subscriberTx.begins.isOk ∨ (run.produced filters edge.file).1.length ≤ channelSize)
    (blocked : ∀ event : PipelineEvent, event.ofStage = true →
      (run.stages library filters edge).step state event = none) : state.Returned := by
  cases finishes : (run.stages library filters edge).step state .finish with
  | some next =>
      obtain ⟨produced, outcome, _, closed, returned, _⟩ := Pipeline.finish_cases finishes
      exact ⟨by rw [closed]; rfl, outcome, returned⟩
  | none =>
      have stuck : (run.stages library filters edge).Stuck state := by
        intro event
        cases event with
        | finish => exact finishes
        | _ => exact blocked _ rfl
      obtain ⟨outcome, ended⟩ := flows.progress stuck drains
      obtain ⟨⟨produced, closed⟩, returned, _⟩ := flows.ended outcome ended
      exact ⟨by rw [closed]; rfl, returned⟩

theorem Flows.not_returned_of_stuck (flows : Flows library filters run edge taken state)
    (stuck : (run.stages library filters edge).Stuck state) (unfinished : state.result = none) :
    ¬ state.Returned := by
  rintro ⟨closed, _⟩
  obtain ⟨outcome, ended⟩ := flows.ended_of_stuck stuck closed
  cases unfinished.symm.trans ended

/-- In no state that any schedule reaches do the stages wait for each other, exactly if the
subscriber can begin its transaction or the channel has room for all of the export. -/
theorem stages_progress_iff (library : Library μ) (filters : FilterLibrary φ) (run : Run μ) (edge : Edge ω) :
    (∀ events state, (run.stages library filters edge).run (run.started filters edge) events = some state →
      state.Returned ∨ ∃ event : PipelineEvent, event.ofStage = true ∧
        ((run.stages library filters edge).step state event).isSome) ↔
      run.subscriberTx.begins.isOk ∨ (run.produced filters edge.file).1.length ≤ channelSize := by
  constructor
  · intro progress
    by_contra overflow
    rw [not_or] at overflow
    obtain ⟨reason, failed⟩ : ∃ reason, run.subscriberTx.begins = .error reason := by
      cases begun : run.subscriberTx.begins with
      | ok _ => exact absurd (by rw [begun]; rfl) overflow.1
      | error reason => exact ⟨reason, rfl⟩
    obtain ⟨events, final, ran, stuck, unfinished⟩ :=
      hangs_of_overflow library failed (not_le.mp overflow.2)
    obtain ⟨taken, flows⟩ := flows_run ran
    rcases progress events final ran with returned | ⟨event, _, enabled⟩
    · exact flows.not_returned_of_stuck stuck unfinished returned
    · rw [stuck event] at enabled
      cases enabled
  · intro drains events state ran
    obtain ⟨taken, flows⟩ := flows_run ran
    by_cases blocked : ∀ event : PipelineEvent, event.ofStage = true →
        (run.stages library filters edge).step state event = none
    · exact .inl (flows.returned_of_blocked drains blocked)
    · push Not at blocked
      obtain ⟨event, stage, enabled⟩ := blocked
      exact .inr ⟨event, stage, Option.isSome_iff_ne_none.mpr enabled⟩

/-- The subscriber of an edge whose store is closed returns, and the producer waits for room for
the last of the documents. -/
theorem closed_store_blocks_producer :
    ∃ events state,
      ((closedStore (List.replicate 10001 { type := "doc".toList, id := "b".toList })).stages
          Simple.library .exact newEdge).run
        ((closedStore (List.replicate 10001 { type := "doc".toList, id := "b".toList })).started
          .exact newEdge) events = some state ∧
      ¬ state.Returned ∧
      ((closedStore (List.replicate 10001 { type := "doc".toList, id := "b".toList })).stages
        Simple.library .exact newEdge).Stuck state := by
  obtain ⟨_, events, state, ran, stuck, unfinished⟩ := hangs_of_closedStore
    (by rw [List.length_replicate]; decide :
      channelSize < (List.replicate 10001 ({ type := "doc".toList, id := "b".toList } : Object)).length)
  obtain ⟨taken, flows⟩ := flows_run ran
  exact ⟨events, state, ran, flows.not_returned_of_stuck stuck unfinished, stuck⟩

end Progress

end Eamerald.Datasync
