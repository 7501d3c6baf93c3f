import Eamerald.Datasync.Pipeline

/-! Every schedule of the stages ends like the run in which they take turns. -/

set_option autoImplicit false

namespace Eamerald.Datasync

open Foundation Store Directory

variable {events : List PipelineEvent}

section Inversion

variable {ω μ φ : Type} {filters : FilterLibrary φ} {run : Run μ} {ending : Except Err Unit}
  {state next : Pipeline ω μ φ}

namespace Pipeline

theorem produce_cases (stepped : state.produce filters ending = some next) : state.producer = none ∧
      ((state.unread = [] ∧ next = { state with
          producer := some ending, failure := state.failure.or (errorOf ending) }) ∨
        (∃ rest, state.unread = .unknown :: rest ∧ next = { state with unread := rest }) ∨
        ∃ applied rest, state.unread = .row applied :: rest ∧ state.channel.length < channelSize ∧
          next = { state with
            unread := rest
            channel := state.channel ++ [applied]
            filter := state.filter.map fun filter => (filters.insert applied.row.key filter).2 }) := by
  unfold produce at stepped
  split at stepped
  · cases stepped
  · rename_i running empty
    cases stepped
    exact ⟨running, .inl ⟨empty, rfl⟩⟩
  · rename_i rest running unread
    cases stepped
    exact ⟨running, .inr (.inl ⟨rest, unread, rfl⟩)⟩
  · rename_i applied rest running unread
    split at stepped
    · rename_i room
      cases stepped
      exact ⟨running, .inr (.inr ⟨applied, rest, unread, room, rfl⟩)⟩
    · cases stepped

theorem beginTx_cases (stepped : state.beginTx run = some next) : state.subscriber = .starting ∧
      ((run.subscriberTx.begins = .ok ⟨⟩ ∧
          next = { state with subscriber := .running state.edge.db .zero none }) ∨
        ∃ error, run.subscriberTx.begins = .error error ∧ next = { state with
          subscriber := .returned (.error error), failure := state.failure.or (some error) }) := by
  unfold beginTx at stepped
  split at stepped
  · rename_i starting begun
    cases stepped
    exact ⟨starting, .inl ⟨begun, rfl⟩⟩
  · rename_i error starting failed
    cases stepped
    exact ⟨starting, .inr ⟨error, failed, rfl⟩⟩
  · cases stepped

theorem report_cases (stepped : state.report = some next) :
    ∃ view ts error, state.subscriber = .running view ts (some error) ∧ state.errChan = none ∧
      next = { state with subscriber := .running view ts none, errChan := some error } := by
  unfold report at stepped
  split at stepped
  · rename_i view ts error running room
    cases stepped
    exact ⟨view, ts, error, running, room, rfl⟩
  · cases stepped

theorem log_cases (stepped : state.log = some next) :
    ∃ error, state.errChan = some error ∧ next = { state with errChan := none } := by
  unfold log at stepped
  split at stepped
  · rename_i error waiting
    cases stepped
    exact ⟨error, waiting, rfl⟩
  · cases stepped

theorem commit_cases (stepped : state.commit run = some next) :
    ∃ view ts outcome, state.subscriber = .running view ts none ∧ state.channel = [] ∧
      state.producer = some outcome ∧ ((run.subscriberTx.commits = .ok ⟨⟩ ∧ next = { state with
          edge := { state.edge with db := view }, subscriber := .returned (.ok ts) }) ∨
        ∃ error, run.subscriberTx.commits = .error error ∧ next = { state with
          subscriber := .returned (.error error), failure := state.failure.or (some error) }) := by
  unfold commit at stepped
  split at stepped
  · rename_i view ts outcome _ running drained closed committed
    cases stepped
    exact ⟨view, ts, outcome, running, drained, closed, .inl ⟨committed, rfl⟩⟩
  · rename_i view ts outcome error running drained closed failed
    cases stepped
    exact ⟨view, ts, outcome, running, drained, closed, .inr ⟨error, failed, rfl⟩⟩
  · cases stepped

variable [Wire ω μ] {library : Library μ}

theorem take_cases (stepped : state.take library = some next) :
    ∃ view ts applied rest, state.subscriber = .running view ts none ∧ state.channel = applied :: rest ∧
      ((∃ row, ((applyInPlace library applied).run Bolt.backend view).1 = .ok row ∧ next = { state with
          channel := rest
          subscriber := .running ((applyInPlace library applied).run Bolt.backend view).2
            (maxTS ts row.updatedAt) none }) ∨
        ∃ error, ((applyInPlace library applied).run Bolt.backend view).1 = .error error ∧
          next = { state with
            channel := rest
            subscriber := .running ((applyInPlace library applied).run Bolt.backend view).2 ts
              (some error) }) := by
  unfold take at stepped
  split at stepped
  · rename_i view ts applied rest running waiting
    refine ⟨view, ts, applied, rest, running, waiting, ?_⟩
    split at stepped
    · rename_i row after ran
      cases stepped
      exact .inl ⟨row, by rw [ran], by rw [ran]⟩
    · rename_i error after ran
      cases stepped
      exact .inr ⟨error, by rw [ran], by rw [ran]⟩
  · cases stepped

theorem finish_cases (stepped : state.finish library filters run = some next) :
    ∃ produced outcome, state.result = none ∧ state.producer = some produced ∧
      state.subscriber = .returned outcome ∧
      ((∃ error, state.failure = some error ∧ next = { state with result := some (.error error) }) ∨
        ∃ ts, state.failure = none ∧ outcome = .ok ts ∧ next = { state with
          edge := (finishSync library filters run state.filter ts state.edge).2
          result := some (finishSync library filters run state.filter ts state.edge).1 }) := by
  unfold finish at stepped
  split at stepped
  · rename_i produced outcome error pending closed returned failed
    cases stepped
    exact ⟨produced, outcome, pending, closed, returned, .inl ⟨error, failed, rfl⟩⟩
  · rename_i produced ts pending closed returned clean
    cases stepped
    exact ⟨produced, .ok ts, pending, closed, returned, .inr ⟨ts, clean, rfl, rfl⟩⟩
  · cases stepped

end Pipeline

end Inversion

section Flow

variable {ω μ φ : Type} [Wire ω μ] (library : Library μ) (filters : FilterLibrary φ) (run : Run μ)
  (edge : Edge ω)

def SubscriberAt (taken : List (Applied μ)) (state : Pipeline ω μ φ) : Prop :=
  match state.subscriber with
  | .starting => taken = []
  | .running view ts _ => run.subscriberTx.begins = .ok ⟨⟩ ∧
      view = ((subscriber library taken).run Bolt.backend edge.db).2 ∧
      ts = largestClock (appliedRows library Bolt.backend taken edge.db) .zero
  | .returned (.error _) => (∃ error, run.subscriberTx.begins = .error error) ∧ taken = [] ∨
      run.subscriberTx.begins = .ok ⟨⟩ ∧ (∃ error, run.subscriberTx.commits = .error error) ∧
        state.producer.isSome
  | .returned (.ok ts) => run.subscriberTx.begins = .ok ⟨⟩ ∧ run.subscriberTx.commits = .ok ⟨⟩ ∧
      state.producer.isSome ∧ state.channel = [] ∧
      ts = largestClock (appliedRows library Bolt.backend taken edge.db) .zero

def committed (taken : List (Applied μ)) : Subscriber ω → Bolt.BoltDB ω
  | .returned (.ok _) => ((subscriber library taken).run Bolt.backend edge.db).2
  | _ => edge.db

/-- Taken, in the channel and still to come: together these are the rows of the export. -/
structure Flows (taken : List (Applied μ)) (state : Pipeline ω μ φ) : Prop where
  rows : taken ++ (state.channel ++ (produce filters state.unread state.filter).1) =
    (run.produced filters edge.file).1
  filter : (produce filters state.unread state.filter).2 = (run.produced filters edge.file).2
  room : state.channel.length ≤ channelSize
  closed : ∀ outcome, state.producer = some outcome →
    state.unread = [] ∧ outcome = (run.stream edge.file).ending
  subscriber : SubscriberAt library run edge taken state
  failure : state.failure = none ↔
    (∀ outcome, state.producer = some outcome → outcome.isOk) ∧
      ∀ outcome, state.subscriber = .returned outcome → outcome.isOk
  pending : state.result = none →
    state.edge = { edge with db := committed library edge taken state.subscriber }
  ended : ∀ outcome, state.result = some outcome →
    (∃ produced, state.producer = some produced) ∧ (∃ returned, state.subscriber = .returned returned) ∧
      state.edge = (syncDirectory library filters run edge).2 ∧
      outcome.isOk = (syncDirectory library filters run edge).1.isOk

variable {library filters run edge} {taken : List (Applied μ)} {state next : Pipeline ω μ φ}

theorem flows_started : Flows library filters run edge [] (run.started filters edge) where
  rows := rfl
  filter := rfl
  room := Nat.zero_le _
  closed _ closed := by cases closed
  subscriber := rfl
  failure := by simp [Run.started]
  pending _ := rfl
  ended _ ended := by cases ended

theorem Flows.not_ended_of_producing (flows : Flows library filters run edge taken state)
    (producing : state.producer = none) (outcome : Except Err Unit) : state.result ≠ some outcome := by
  intro ended
  obtain ⟨⟨produced, closed⟩, _⟩ := flows.ended outcome ended
  cases producing.symm.trans closed

theorem Flows.not_ended_of_subscriber (flows : Flows library filters run edge taken state)
    (running : ∀ outcome, state.subscriber ≠ .returned outcome) (outcome : Except Err Unit) :
    state.result ≠ some outcome := by
  intro ended
  obtain ⟨_, ⟨returned, found⟩, _⟩ := flows.ended outcome ended
  exact running returned found

theorem or_eq_none {first second : Option Err} : first.or second = none ↔ first = none ∧ second = none := by
  cases first <;> simp

theorem errorOf_eq_none {α : Type} {outcome : Except Err α} : errorOf outcome = none ↔ outcome.isOk := by
  cases outcome <;> simp [errorOf, Except.isOk, Except.toBool]

theorem SubscriberAt.of_producing (reached : SubscriberAt library run edge taken state)
    (producing : state.producer = none) (same : next.subscriber = state.subscriber) :
    SubscriberAt library run edge taken next := by
  unfold SubscriberAt at reached ⊢
  rw [same]
  cases found : state.subscriber with
  | starting | running =>
      rw [found] at reached
      exact reached
  | returned outcome =>
      rw [found] at reached
      cases outcome with
      | ok ts =>
          obtain ⟨_, _, closed, _⟩ := reached
          rw [producing] at closed
          cases closed
      | error error =>
          rcases reached with early | ⟨_, _, closed⟩
          · exact .inl early
          · rw [producing] at closed
            cases closed

theorem Flows.produce (flows : Flows library filters run edge taken state)
    (stepped : state.produce filters (run.stream edge.file).ending = some next) :
    Flows library filters run edge taken next := by
  obtain ⟨producing, cases⟩ := Pipeline.produce_cases stepped
  have unfinished := flows.not_ended_of_producing producing
  rcases cases with ⟨empty, rfl⟩ | ⟨rest, unread, rfl⟩ | ⟨applied, rest, unread, room, rfl⟩
  · refine ⟨flows.rows, flows.filter, flows.room, ?_, ?_, ?_, flows.pending, ?_⟩
    · intro outcome closed
      cases closed
      exact ⟨empty, rfl⟩
    · exact flows.subscriber.of_producing producing rfl
    · have before := flows.failure
      simp only [producing, or_eq_none, errorOf_eq_none, Option.some.injEq, forall_eq'] at before ⊢
      rw [before]
      simp [and_comm]
    · intro outcome ended
      exact absurd ended (unfinished outcome)
  · have rows := flows.rows
    have filter := flows.filter
    rw [unread] at rows filter
    refine ⟨rows, filter, flows.room, ?_, flows.subscriber, flows.failure, flows.pending, flows.ended⟩
    intro outcome closed
    cases producing.symm.trans closed
  · have rows := flows.rows
    have filter := flows.filter
    rw [unread] at rows filter
    refine ⟨?_, filter, ?_, ?_, ?_, flows.failure, flows.pending, flows.ended⟩
    · rw [← rows]
      simp [Datasync.produce]
    · simpa using room
    · intro outcome closed
      cases producing.symm.trans closed
    · exact flows.subscriber.of_producing producing rfl

theorem Flows.working (flows : Flows library filters run edge taken state)
    (running : ∀ outcome, state.subscriber ≠ .returned outcome) : state.result = none ∧ state.edge = edge := by
  have unfinished : state.result = none := by
    cases ended : state.result with
    | none => rfl
    | some outcome => exact absurd ended (flows.not_ended_of_subscriber running outcome)
  refine ⟨unfinished, ?_⟩
  rw [flows.pending unfinished]
  cases found : state.subscriber with
  | starting | running => rfl
  | returned outcome => exact absurd found (running outcome)

theorem Flows.beginTx (flows : Flows library filters run edge taken state)
    (stepped : state.beginTx run = some next) : Flows library filters run edge taken next := by
  obtain ⟨starting, cases⟩ := Pipeline.beginTx_cases stepped
  obtain ⟨unfinished, same⟩ := flows.working (by simp [starting])
  have none_taken : taken = [] := by
    have reached := flows.subscriber
    unfold SubscriberAt at reached
    rwa [starting] at reached
  have before := flows.failure
  rcases cases with ⟨begun, rfl⟩ | ⟨error, failed, rfl⟩
  · refine ⟨flows.rows, flows.filter, flows.room, flows.closed, ?_, ?_, ?_, ?_⟩
    · refine ⟨begun, ?_, ?_⟩
      · rw [none_taken, same]
        rfl
      · rw [none_taken]
        rfl
    · simpa [starting] using before
    · intro _
      exact same
    · intro outcome ended
      cases unfinished.symm.trans ended
  · refine ⟨flows.rows, flows.filter, flows.room, flows.closed, ?_, ?_, ?_, ?_⟩
    · exact .inl ⟨⟨error, failed⟩, none_taken⟩
    · simp [Except.isOk, Except.toBool]
    · intro _
      exact same
    · intro outcome ended
      cases unfinished.symm.trans ended

theorem view_take (library : Library μ) (taken : List (Applied μ)) (applied : Applied μ) (db : Bolt.BoltDB ω) :
    ((applyInPlace library applied).run Bolt.backend ((subscriber library taken).run Bolt.backend db).2).2 =
      ((subscriber library (taken ++ [applied])).run Bolt.backend db).2 := by
  rw [subscriber_append, subscriber_cons, run_apply]
  rfl

theorem clock_take (library : Library μ) (taken : List (Applied μ)) (applied : Applied μ)
    (db : Bolt.BoltDB ω) (ts : Timestamp) :
    largestClock (appliedRows library Bolt.backend (taken ++ [applied]) db) ts =
      if ((applyInPlace library applied).run Bolt.backend
          ((subscriber library taken).run Bolt.backend db).2).1.isOk then
        maxTS (largestClock (appliedRows library Bolt.backend taken db) ts) applied.now
      else largestClock (appliedRows library Bolt.backend taken db) ts := by
  rw [appliedRows_append]
  simp only [appliedRows, run_apply]
  cases ((applyInPlace library applied).run Bolt.backend
      ((subscriber library taken).run Bolt.backend db).2).1 with
  | ok row =>
      simp only [Except.map, Except.isOk, Except.toBool, ↓reduceIte, largestClock, List.foldl_append]
      rfl
  | error error => simp [Except.map, Except.isOk, Except.toBool]

theorem Flows.take (flows : Flows library filters run edge taken state)
    (stepped : state.take library = some next) :
    ∃ applied, Flows library filters run edge (taken ++ [applied]) next := by
  obtain ⟨view, ts, applied, rest, running, waiting, cases⟩ := Pipeline.take_cases stepped
  obtain ⟨unfinished, same⟩ := flows.working (by simp [running])
  have reached := flows.subscriber
  unfold SubscriberAt at reached
  rw [running] at reached
  obtain ⟨begun, seen, clock⟩ := reached
  have before := flows.failure
  have rows := flows.rows
  have room := flows.room
  rw [waiting] at rows room
  have later : taken ++ [applied] ++ (rest ++ (Datasync.produce filters state.unread state.filter).1) =
      (run.produced filters edge.file).1 := by
    rw [← rows]
    simp
  have continues := view_take library taken applied edge.db
  have clocked := clock_take library taken applied edge.db .zero
  rw [← seen] at continues clocked
  rw [← clock] at clocked
  refine ⟨applied, ?_⟩
  rcases cases with ⟨row, ran, rfl⟩ | ⟨error, ran, rfl⟩
  · refine ⟨later, flows.filter, Nat.le_of_succ_le room, flows.closed, ⟨begun, continues, ?_⟩, ?_,
      fun _ => same, ?_⟩
    · rw [clocked, ran, updatedAt_applyInPlace (Prod.ext ran rfl)]
      rfl
    · simpa [running] using before
    · intro outcome ended
      cases unfinished.symm.trans ended
  · refine ⟨later, flows.filter, Nat.le_of_succ_le room, flows.closed, ⟨begun, continues, ?_⟩, ?_,
      fun _ => same, ?_⟩
    · rw [clocked, ran]
      rfl
    · simpa [running] using before
    · intro outcome ended
      cases unfinished.symm.trans ended

theorem Flows.report (flows : Flows library filters run edge taken state)
    (stepped : state.report = some next) : Flows library filters run edge taken next := by
  obtain ⟨view, ts, error, running, _, rfl⟩ := Pipeline.report_cases stepped
  obtain ⟨unfinished, same⟩ := flows.working (by simp [running])
  have reached := flows.subscriber
  have before := flows.failure
  unfold SubscriberAt at reached
  rw [running] at reached
  refine ⟨flows.rows, flows.filter, flows.room, flows.closed, reached, ?_, fun _ => same, ?_⟩
  · simpa [running] using before
  · intro outcome ended
    cases unfinished.symm.trans ended

theorem Flows.log (flows : Flows library filters run edge taken state)
    (stepped : state.log = some next) : Flows library filters run edge taken next := by
  obtain ⟨error, _, rfl⟩ := Pipeline.log_cases stepped
  exact ⟨flows.rows, flows.filter, flows.room, flows.closed, flows.subscriber, flows.failure,
    flows.pending, flows.ended⟩

theorem Flows.commit (flows : Flows library filters run edge taken state)
    (stepped : state.commit run = some next) : Flows library filters run edge taken next := by
  obtain ⟨view, ts, outcome, running, drained, closed, cases⟩ := Pipeline.commit_cases stepped
  obtain ⟨unfinished, same⟩ := flows.working (by simp [running])
  have reached := flows.subscriber
  have before := flows.failure
  unfold SubscriberAt at reached
  rw [running] at reached
  obtain ⟨begun, seen, clock⟩ := reached
  rcases cases with ⟨done, rfl⟩ | ⟨error, failed, rfl⟩
  · refine ⟨flows.rows, flows.filter, flows.room, flows.closed, ?_, ?_, ?_, ?_⟩
    · exact ⟨begun, done, by rw [closed]; rfl, drained, clock⟩
    · simpa [running, Except.isOk, Except.toBool] using before
    · intro _
      rw [same, seen]
      rfl
    · intro outcome ended
      cases unfinished.symm.trans ended
  · refine ⟨flows.rows, flows.filter, flows.room, flows.closed, ?_, ?_, fun _ => same, ?_⟩
    · exact .inr ⟨begun, ⟨error, failed⟩, by rw [closed]; rfl⟩
    · simp [Except.isOk, Except.toBool]
    · intro outcome ended
      cases unfinished.symm.trans ended

theorem syncDirectory_of_subscriber_error {error : Err}
    (failed : run.subscriberTx.begins = .error error ∨ run.subscriberTx.begins = .ok ⟨⟩ ∧
      run.subscriberTx.commits = .error error) :
    syncDirectory library filters run edge = (.error error, edge) := by
  have stage : subscriberStage library run (run.produced filters edge.file).1 edge.db =
      (.error error, edge.db) := by
    unfold subscriberStage withTx
    rcases failed with failed | ⟨begun, failed⟩
    · rw [failed]
    · rw [begun, failed, run_subscribe]
  simp only [syncDirectory, stage]

theorem subscriberTx_clean (begun : run.subscriberTx.begins = .ok ⟨⟩)
    (done : run.subscriberTx.commits = .ok ⟨⟩) : run.subscriberTx = {} := by
  cases shape : run.subscriberTx with
  | mk begins commits =>
      rw [shape] at begun done
      cases begun
      cases done
      rfl

theorem syncDirectory_of_stream_error (clean : run.subscriberTx = {}) {error : Err}
    (ended : (run.stream edge.file).ending = .error error) : syncDirectory library filters run edge =
      (.error error, { edge with db := run.subscribed library filters edge }) := by
  simp only [syncDirectory, subscribed_clean clean, subscriberStage_clean clean, ended]

theorem syncDirectory_of_stream_ok (clean : run.subscriberTx = {})
    (ended : (run.stream edge.file).ending = .ok ()) : syncDirectory library filters run edge =
      finishSync library filters run (run.produced filters edge.file).2
        (largestClock (appliedRows library Bolt.backend (run.produced filters edge.file).1 edge.db) .zero)
        { edge with db := run.subscribed library filters edge } := by
  simp only [syncDirectory, subscribed_clean clean, subscriberStage_clean clean, ended]

theorem Flows.finish (flows : Flows library filters run edge taken state)
    (stepped : state.finish library filters run = some next) : Flows library filters run edge taken next := by
  obtain ⟨produced, outcome, unfinished, closed, returned, cases⟩ := Pipeline.finish_cases stepped
  obtain ⟨empty, ended⟩ := flows.closed produced closed
  have reached := flows.subscriber
  have failure := flows.failure
  have pending := flows.pending unfinished
  unfold SubscriberAt at reached
  rw [returned] at reached pending
  simp only [closed, returned, Option.some.injEq, Subscriber.returned.injEq, forall_eq'] at failure
  -- With the subscriber's transaction committed, all rows were taken.
  have whole (drained : state.channel = []) : taken = (run.produced filters edge.file).1 ∧
      state.filter = (run.produced filters edge.file).2 := by
    have rows := flows.rows
    have filter := flows.filter
    rw [empty] at rows filter
    rw [drained] at rows
    exact ⟨by simpa [Datasync.produce] using rows, filter⟩
  rcases cases with ⟨error, failed, rfl⟩ | ⟨ts, unfailed, rfl, rfl⟩
  · refine ⟨flows.rows, flows.filter, flows.room, flows.closed, flows.subscriber, flows.failure,
      (nomatch ·), ?_⟩
    intro result found
    cases found
    refine ⟨⟨produced, closed⟩, ⟨outcome, returned⟩, ?_⟩
    cases outcome with
    | error first =>
        obtain ⟨reason, failedTx⟩ : ∃ reason, run.subscriberTx.begins = .error reason ∨
            run.subscriberTx.begins = .ok ⟨⟩ ∧ run.subscriberTx.commits = .error reason := by
          rcases reached with ⟨⟨reason, early⟩, _⟩ | ⟨begun, ⟨reason, late⟩, _⟩
          · exact ⟨reason, .inl early⟩
          · exact ⟨reason, .inr ⟨begun, late⟩⟩
        rw [syncDirectory_of_subscriber_error failedTx]
        exact ⟨pending, rfl⟩
    | ok ts =>
        obtain ⟨begun, done, _, drained, _⟩ := reached
        have broken : ∃ reason, (run.stream edge.file).ending = .error reason := by
          rw [← ended]
          cases produced with
          | error reason => exact ⟨reason, rfl⟩
          | ok _ =>
              have clean := failure.mpr ⟨rfl, rfl⟩
              cases failed.symm.trans clean
        obtain ⟨reason, broken⟩ := broken
        rw [syncDirectory_of_stream_error (subscriberTx_clean begun done) broken]
        refine ⟨?_, rfl⟩
        rw [pending, (whole drained).1, subscribed_clean (subscriberTx_clean begun done)]
        rfl
  · refine ⟨flows.rows, flows.filter, flows.room, flows.closed, flows.subscriber, flows.failure,
      (nomatch ·), ?_⟩
    intro result found
    cases found
    refine ⟨⟨produced, closed⟩, ⟨.ok ts, returned⟩, ?_⟩
    obtain ⟨begun, done, _, drained, clock⟩ := reached
    have fine : (run.stream edge.file).ending = .ok () := by
      have ok := (failure.mp unfailed).1
      rw [← ended]
      cases produced with
      | error reason => cases ok
      | ok _ => rfl
    obtain ⟨all, filter⟩ := whole drained
    have stored : state.edge = { edge with db := run.subscribed library filters edge } := by
      rw [pending, all, subscribed_clean (subscriberTx_clean begun done)]
      rfl
    rw [syncDirectory_of_stream_ok (subscriberTx_clean begun done) fine, ← stored, ← filter, ← all, ← clock]
    exact ⟨rfl, rfl⟩

theorem Flows.step (flows : Flows library filters run edge taken state) {event : PipelineEvent}
    (stepped : (run.stages library filters edge).step state event = some next) :
    ∃ more, Flows library filters run edge more next := by
  cases event with
  | produce => exact ⟨taken, flows.produce stepped⟩
  | beginTx => exact ⟨taken, flows.beginTx stepped⟩
  | take =>
      obtain ⟨applied, continued⟩ := flows.take stepped
      exact ⟨taken ++ [applied], continued⟩
  | report => exact ⟨taken, flows.report stepped⟩
  | log => exact ⟨taken, flows.log stepped⟩
  | commit => exact ⟨taken, flows.commit stepped⟩
  | finish => exact ⟨taken, flows.finish stepped⟩

theorem flows_run (ran : (run.stages library filters edge).run (run.started filters edge) events = some state) :
    ∃ taken, Flows library filters run edge taken state := by
  refine Machine.invariant_of_steps (fun state => ∃ taken, Flows library filters run edge taken state)
    ?_ ⟨[], flows_started⟩ ran
  rintro current event next ⟨taken, flows⟩ stepped
  exact flows.step stepped

/-- Whatever the schedule, a run that returns has done what the run in which the stages take
turns does. -/
theorem agrees_with_syncDirectory {outcome : Except Err Unit}
    (ran : (run.stages library filters edge).run (run.started filters edge) events = some state)
    (ended : state.result = some outcome) : state.edge = (syncDirectory library filters run edge).2 ∧
      outcome.isOk = (syncDirectory library filters run edge).1.isOk := by
  obtain ⟨taken, flows⟩ := flows_run ran
  exact (flows.ended outcome ended).2.2

end Flow

section Termination

variable {ω μ φ : Type} [Wire ω μ] {library : Library μ} {filters : FilterLibrary φ} {run : Run μ}
  {edge : Edge ω} {state next : Pipeline ω μ φ}

def Subscriber.rank : Subscriber ω → Nat
  | .starting => 2
  | .running _ _ none => 1
  | .running _ _ (some _) => 3
  | .returned _ => 0

/-- What is left to do: a row moves from the stream to the channel, from there to the
subscriber, and its error to the logger. -/
def Pipeline.rank (state : Pipeline ω μ φ) : Nat :=
  5 * state.unread.length + 4 * state.channel.length + state.subscriber.rank +
    (if state.producer.isNone then 1 else 0) + (if state.errChan.isSome then 1 else 0) +
    if state.result.isNone then 1 else 0

theorem rank_step {event : PipelineEvent}
    (stepped : (run.stages library filters edge).step state event = some next) : next.rank < state.rank := by
  cases event with
  | produce =>
      obtain ⟨producing, ⟨empty, rfl⟩ | ⟨rest, unread, rfl⟩ | ⟨applied, rest, unread, _, rfl⟩⟩ :=
        Pipeline.produce_cases stepped
      · simp [Pipeline.rank, producing]
      · simp only [Pipeline.rank, unread, List.length_cons]
        omega
      · simp only [Pipeline.rank, unread, List.length_cons, List.length_append, List.length_nil]
        omega
  | beginTx =>
      obtain ⟨starting, ⟨_, rfl⟩ | ⟨error, _, rfl⟩⟩ := Pipeline.beginTx_cases stepped
      · simp [Pipeline.rank, starting, Subscriber.rank]
      · simp [Pipeline.rank, starting, Subscriber.rank]
  | take =>
      obtain ⟨view, ts, applied, rest, running, waiting, ⟨row, _, rfl⟩ | ⟨error, _, rfl⟩⟩ :=
        Pipeline.take_cases stepped
      · simp only [Pipeline.rank, running, waiting, Subscriber.rank, List.length_cons]
        omega
      · simp only [Pipeline.rank, running, waiting, Subscriber.rank, List.length_cons]
        omega
  | report =>
      obtain ⟨view, ts, error, running, room, rfl⟩ := Pipeline.report_cases stepped
      simp only [Pipeline.rank, running, room, Subscriber.rank, Option.isSome_some, Option.isSome_none,
        ↓reduceIte, Bool.false_eq_true]
      omega
  | log =>
      obtain ⟨error, waiting, rfl⟩ := Pipeline.log_cases stepped
      simp [Pipeline.rank, waiting]
  | commit =>
      obtain ⟨view, ts, outcome, running, _, _, ⟨_, rfl⟩ | ⟨error, _, rfl⟩⟩ :=
        Pipeline.commit_cases stepped
      · simp [Pipeline.rank, running, Subscriber.rank]
      · simp [Pipeline.rank, running, Subscriber.rank]
  | finish =>
      obtain ⟨produced, outcome, unfinished, _, _, ⟨error, _, rfl⟩ | ⟨ts, _, _, rfl⟩⟩ :=
        Pipeline.finish_cases stepped
      · simp [Pipeline.rank, unfinished]
      · simp [Pipeline.rank, unfinished]

theorem length_le_of_stages (ran : (run.stages library filters edge).run state events = some next) :
    events.length ≤ state.rank :=
  Machine.length_le_rank (fun _ _ _ stepped => rank_step stepped) ran

section Stuck

variable {taken : List (Applied μ)}

theorem Pipeline.errChan_of_stuck (stuck : (run.stages library filters edge).Stuck state) :
    state.errChan = none := by
  have silent := stuck .log
  change state.log = none at silent
  unfold Pipeline.log at silent
  split at silent
  · cases silent
  · assumption

theorem Pipeline.producer_of_stuck (stuck : (run.stages library filters edge).Stuck state) :
    state.producer.isSome ∨ ∃ applied rest, state.unread = .row applied :: rest ∧
      channelSize ≤ state.channel.length := by
  have silent := stuck .produce
  change state.produce filters _ = none at silent
  unfold Pipeline.produce at silent
  split at silent
  · rename_i closed
    exact .inl (by rw [closed]; rfl)
  · cases silent
  · cases silent
  · rename_i applied rest _ unread
    split at silent
    · cases silent
    · rename_i full
      exact .inr ⟨applied, rest, unread, not_lt.mp full⟩

theorem Pipeline.subscriber_of_stuck (stuck : (run.stages library filters edge).Stuck state) :
    ∃ outcome, state.subscriber = .returned outcome := by
  cases found : state.subscriber with
  | returned outcome => exact ⟨outcome, rfl⟩
  | starting =>
      have silent := stuck .beginTx
      change state.beginTx run = none at silent
      unfold Pipeline.beginTx at silent
      cases begun : run.subscriberTx.begins <;> simp [found, begun] at silent
  | running view ts report =>
      cases report with
      | some error =>
          have silent := stuck .report
          change state.report = none at silent
          simp [Pipeline.report, found, Pipeline.errChan_of_stuck stuck] at silent
      | none =>
          cases waiting : state.channel with
          | cons applied rest =>
              have silent := stuck .take
              change state.take library = none at silent
              unfold Pipeline.take at silent
              simp only [found, waiting] at silent
              split at silent <;> cases silent
          | nil =>
              rcases Pipeline.producer_of_stuck stuck with closed | ⟨_, _, _, full⟩
              · obtain ⟨outcome, closed⟩ := Option.isSome_iff_exists.mp closed
                have silent := stuck .commit
                change state.commit run = none at silent
                unfold Pipeline.commit at silent
                cases done : run.subscriberTx.commits <;>
                  simp [found, waiting, closed, done] at silent
              · rw [waiting] at full
                simp [channelSize] at full

theorem Flows.ended_of_stuck (flows : Flows library filters run edge taken state)
    (stuck : (run.stages library filters edge).Stuck state) (closed : state.producer.isSome) :
    ∃ outcome, state.result = some outcome := by
  cases unfinished : state.result with
  | some outcome => exact ⟨outcome, rfl⟩
  | none =>
      obtain ⟨produced, closed⟩ := Option.isSome_iff_exists.mp closed
      obtain ⟨outcome, returned⟩ := Pipeline.subscriber_of_stuck stuck
      have silent := stuck .finish
      change state.finish library filters run = none at silent
      unfold Pipeline.finish at silent
      cases failed : state.failure with
      | some error => simp [unfinished, closed, returned, failed] at silent
      | none =>
          have fine := (flows.failure.mp failed).2 outcome returned
          cases outcome with
          | error error => cases fine
          | ok ts => simp [unfinished, closed, returned, failed] at silent

/-- A subscriber that began takes every row. One that could not needs a channel with room for all. -/
theorem Flows.progress (flows : Flows library filters run edge taken state)
    (stuck : (run.stages library filters edge).Stuck state)
    (drains : run.subscriberTx.begins.isOk ∨ (run.produced filters edge.file).1.length ≤ channelSize) :
    ∃ outcome, state.result = some outcome := by
  rcases Pipeline.producer_of_stuck stuck with closed | ⟨applied, rest, unread, full⟩
  · exact flows.ended_of_stuck stuck closed
  · exfalso
    have producing : state.producer = none := by
      cases closed : state.producer with
      | none => rfl
      | some outcome => cases unread.symm.trans (flows.closed outcome closed).1
    obtain ⟨outcome, returned⟩ := Pipeline.subscriber_of_stuck stuck
    have reached := flows.subscriber
    unfold SubscriberAt at reached
    rw [returned] at reached
    cases outcome with
    | ok ts =>
        obtain ⟨_, _, closed, _⟩ := reached
        rw [producing] at closed
        cases closed
    | error error =>
        rcases reached with ⟨⟨reason, failed⟩, rfl⟩ | ⟨_, _, closed⟩
        · rcases drains with begun | room
          · rw [failed] at begun
            cases begun
          · have rows := congrArg List.length flows.rows
            rw [unread] at rows
            simp only [Datasync.produce, List.nil_append, List.length_append, List.length_cons] at rows
            omega
        · rw [producing] at closed
          cases closed

/-- A producer with more rows than there is room for waits for a subscriber that never began. -/
theorem hangs_of_overflow (library : Library μ) {reason : Err}
    (failed : run.subscriberTx.begins = .error reason)
    (overflow : channelSize < (run.produced filters edge.file).1.length) :
    ∃ events final, (run.stages library filters edge).run (run.started filters edge) events =
        some final ∧ (run.stages library filters edge).Stuck final ∧ final.result = none := by
  obtain ⟨events, final, ran, stuck⟩ : ∃ events final,
      (run.stages library filters edge).run (run.started filters edge) events = some final ∧
        (run.stages library filters edge).Stuck final :=
    Machine.exists_stuck (fun _ _ _ stepped => rank_step stepped) (run.started filters edge)
  refine ⟨events, final, ran, stuck, ?_⟩
  cases ended : final.result with
  | none => rfl
  | some outcome =>
      exfalso
      obtain ⟨taken, flows⟩ := flows_run ran
      obtain ⟨⟨produced, closed⟩, ⟨returned, found⟩, _⟩ := flows.ended outcome ended
      have reached := flows.subscriber
      have rows := congrArg List.length flows.rows
      have room := flows.room
      rw [(flows.closed produced closed).1] at rows
      unfold SubscriberAt at reached
      rw [found] at reached
      cases returned with
      | ok ts => cases failed.symm.trans reached.1
      | error error =>
          rcases reached with ⟨_, rfl⟩ | ⟨begun, _⟩
          · simp only [Datasync.produce, List.append_nil, List.nil_append] at rows
            omega
          · cases failed.symm.trans begun

end Stuck

end Termination

end Eamerald.Datasync
