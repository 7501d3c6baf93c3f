import Eamerald.Adl.Logger
import Eamerald.Authorizer.DecisionLog

/-! Which decisions leave the service with a record. An output that is not brought up, and a
logger that is being closed, take records without keeping them and without an error. -/

set_option autoImplicit false

namespace Eamerald.Adl

open Foundation Authorizer

section Start

variable {config : Config} {started : Except Failure Unit}

def Config.BringsUp (config : Config) (started : Except Failure Unit) : Prop :=
  outputStdout ∈ config.outputs ∨
    outputOTLP ∈ config.outputs ∧ config.otlpEndpoint ≠ [] ∧ started.isOk = true

theorem startOTel_eq (logger : Logger) : startOTel config started logger =
      if config.otlpEndpoint ≠ [] ∧ started.isOk = true then { logger with otel := true, exporting := true }
      else logger := by
  unfold startOTel
  by_cases blank : config.otlpEndpoint = []
  · simp [blank]
  · cases started with
    | error failure => simp [blank, Except.isOk, Except.toBool]
    | ok _ => simp [blank, Except.isOk, Except.toBool]

theorem new_eq (enabled : config.enabled = true) :
    Logger.new config started =
      { enabled := true
        out := if outputStdout ∈ config.outputs then .stdout else .discard
        otel := decide (outputOTLP ∈ config.outputs ∧ config.otlpEndpoint ≠ [] ∧ started.isOk = true)
        exporting := decide (outputOTLP ∈ config.outputs ∧ config.otlpEndpoint ≠ [] ∧ started.isOk = true) } := by
  unfold Logger.new
  simp only [enabled, Bool.not_true, Bool.false_eq_true, ↓reduceIte, startOTel_eq]
  by_cases stdout : outputStdout ∈ config.outputs <;> by_cases otlp : outputOTLP ∈ config.outputs <;>
    by_cases up : config.otlpEndpoint ≠ [] ∧ started.isOk = true <;> simp [stdout, otlp, up]

end Start

section Runs

variable {ρ : Type} {records : Records ρ} {config : Config} {started : Except Failure Unit}
  {state : State ρ} {call : Nat} {errors : List Failure}

/-- Every decision that was returned without an error is on some output. -/
def Logged (state : State ρ) : Prop :=
  ∀ call record, state.calls call = some (.returned record none) →
    (call, record) ∈ state.stdout ∨ (call, record) ∈ state.exported

/-- Every record is given to the output that keeps it before the logger is closed. -/
def Timely (config : Config) (state : State ρ) : Event ρ → Prop
  | .write _ _ => outputStdout ∈ config.outputs → state.closing = .no
  | .look _ | .hand _ => outputStdout ∉ config.outputs → state.closing = .no
  | _ => True

instance {config : Config} {state : State ρ} {event : Event ρ} : Decidable (Timely config state event) := by
  cases event <;> unfold Timely <;> infer_instance

def Kept (config : Config) (state : State ρ) (call : Nat) : Stage ρ → Prop
  | .written record errors | .exporting record errors =>
      outputStdout ∈ config.outputs → errors = [] → (call, record) ∈ state.stdout
  | .returned record error => error = none → (call, record) ∈ state.stdout ∨ (call, record) ∈ state.exported
  | .evaluated _ | .panicked => True

theorem Kept.mono {after : State ρ} {stage : Stage ρ} (kept : Kept config state call stage)
    (stdout : state.stdout ⊆ after.stdout) (exported : state.exported ⊆ after.exported) :
    Kept config after call stage := by
  cases stage with
  | evaluated | panicked => trivial
  | written record errors => exact fun up clean => stdout (kept up clean)
  | exporting record errors => exact fun up clean => stdout (kept up clean)
  | returned record error => exact fun success => (kept success).imp (stdout ·) (exported ·)

theorem errors_eq_nil {record : ρ}
    (success : adlError (records.evalErr record) (join errors) = none) : errors = [] := by
  obtain ⟨_, silent⟩ := Option.or_eq_none_iff.mp success
  by_contra present
  rw [join, if_neg present] at silent
  cases silent

variable (config started) in
/-- The calls are kept, and the logger is as it was started until it is closed. -/
structure Safe (state : State ρ) : Prop where
  enabled : state.logger.enabled = true
  untouched : state.closing = .no → state.logger = Logger.new config started
  kept : ∀ call stage, state.calls call = some stage → Kept config state call stage

theorem Safe.move (safe : Safe config started state) {stage : Stage ρ}
    {stdout exported : List (Nat × ρ)} (more : state.stdout ⊆ stdout) (later : state.exported ⊆ exported)
    (kept : Kept config { state with stdout, exported } call stage) :
    Safe config started { state.move call stage with stdout, exported } := by
  refine ⟨safe.enabled, safe.untouched, fun other found there => ?_⟩
  simp only [State.move, Function.update_apply] at there
  split at there
  · rename_i same
    cases there
    subst same
    exact kept.mono (List.Subset.refl _) (List.Subset.refl _)
  · exact (safe.kept other found there).mono more later

section Up

variable (enabled : config.enabled = true) (up : config.BringsUp started)

include enabled

theorem Safe.write (safe : Safe config started state) (record : ρ)
    (outcome : Except Failure Unit) (timely : outputStdout ∈ config.outputs → state.closing = .no) :
    Safe config started (write records state call record outcome) := by
  refine safe.move ?_ (List.Subset.refl _) ?_
  · split
    · exact List.subset_cons_self _ _
    · exact List.Subset.refl _
  · intro stdout clean
    have logger := safe.untouched (timely stdout)
    have sink : state.logger.out = .stdout := by
      rw [logger, new_eq enabled]
      exact if_pos stdout
    cases answer : writeRecord records state.logger.out outcome record with
    | error failure =>
        rw [answer] at clean
        cases clean
    | ok _ =>
        dsimp only
        rw [if_pos ⟨rfl, sink⟩]
        exact List.mem_cons_self

include up

theorem exporter_up (safe : Safe config started state)
    (only : outputStdout ∉ config.outputs) (still : state.closing = .no) :
    state.logger.otel = true ∧ state.logger.exporting = true := by
  have there := up.resolve_left only
  rw [safe.untouched still, new_eq enabled]
  exact ⟨decide_eq_true there, decide_eq_true there⟩

theorem Safe.look (safe : Safe config started state) {record : ρ} (found : state.calls call = some (.written record errors))
    (timely : outputStdout ∉ config.outputs → state.closing = .no) : Safe config started (state.move call
      (if state.logger.otel then .exporting record errors else finished records record errors)) := by
  refine safe.move (List.Subset.refl _) (List.Subset.refl _) ?_
  split
  · exact fun stdout clean => safe.kept call _ found stdout clean
  · rename_i absent
    intro success
    by_cases stdout : outputStdout ∈ config.outputs
    · exact .inl (safe.kept call _ found stdout (errors_eq_nil success))
    · exact absurd (exporter_up enabled up safe stdout (timely stdout)).1 absent

theorem Safe.hand (safe : Safe config started state) {record : ρ} (found : state.calls call = some (.exporting record errors))
    (timely : outputStdout ∉ config.outputs → state.closing = .no) :
    Safe config started (hand records state call record errors) := by
  have panicked : Safe config started (state.move call .panicked) :=
    safe.move (List.Subset.refl _) (List.Subset.refl _) trivial
  unfold Adl.hand
  split
  · exact panicked
  · cases records.marshal record with
    | error failure =>
        refine safe.move (List.Subset.refl _) (List.Subset.refl _) fun success => ?_
        cases List.append_ne_nil_of_right_ne_nil errors (List.cons_ne_nil failure [])
          (errors_eq_nil success)
    | ok _ =>
        refine safe.move (List.Subset.refl _) ?_ fun success => ?_
        · split
          · exact List.subset_cons_self _ _
          · exact List.Subset.refl _
        · by_cases stdout : outputStdout ∈ config.outputs
          · exact .inl (safe.kept call _ found stdout (errors_eq_nil success))
          · right
            dsimp only
            rw [if_pos (exporter_up enabled up safe stdout (timely stdout)).2]
            exact List.mem_cons_self

theorem Safe.step {next : State ρ} {event : Event ρ} (safe : Safe config started state)
    (timely : Timely config state event) (stepped : (logging records).step state event = some next) :
    Safe config started next := by
  cases event with
  | evaluate call record =>
      simp only [logging] at stepped
      split at stepped
      · cases stepped
        rw [if_pos safe.enabled]
        exact safe.move (List.Subset.refl _) (List.Subset.refl _) trivial
      · cases stepped
  | write call outcome =>
      simp only [logging] at stepped
      split at stepped
      · cases stepped
        exact safe.write enabled _ outcome timely
      · cases stepped
  | look call =>
      simp only [logging] at stepped
      split at stepped
      · rename_i found
        cases stepped
        exact safe.look enabled up found timely
      · cases stepped
  | hand call =>
      simp only [logging] at stepped
      split at stepped
      · rename_i found
        cases stepped
        exact safe.hand enabled up found timely
      · cases stepped
  | discard | shutDown | clear =>
      -- Closing changes the logger only, and it is not as it was started any more.
      simp only [logging] at stepped
      split at stepped
      · cases stepped
        refine ⟨safe.enabled, fun still => ?_, fun call stage found => safe.kept call stage found⟩
        cases still
      · cases stepped

end Up

theorem safe_initial (enabled : config.enabled = true) :
    Safe config started (initial config started : State ρ) := by
  refine ⟨?_, fun _ => rfl, fun call stage found => ?_⟩
  · rw [initial, new_eq enabled]
  · cases found

theorem Safe.logged (safe : Safe config started state) : Logged state :=
  fun call _ returned => safe.kept call _ returned rfl

section Quiet

variable {record : ρ} (decided : records.evalErr record = none) (encodes : (records.marshal record).isOk = true)

def quietCall (record : ρ) : List (Event ρ) := [.evaluate 0 record, .write 0 (.ok ()), .look 0]

include decided encodes

theorem unlogged_of_quiet (config : Config) (state : State ρ) (quiet : state.logger = { enabled := true })
    (fresh : state.calls = fun _ => none) (stdout : state.stdout = []) (exported : state.exported = []) :
    ∃ final, (logging records).run state (quietCall record) = some final ∧ ¬ Logged final ∧
      (state.closing = .no → (logging records).Respects (Timely config) state (quietCall record)) := by
  obtain ⟨text, encoded⟩ : ∃ text, records.marshal record = .ok text := by
    cases answer : records.marshal record with
    | error failure =>
        rw [answer] at encodes
        cases encodes
    | ok text => exact ⟨text, rfl⟩
  let evaluated : State ρ := state.move 0 (.evaluated record)
  let written : State ρ := evaluated.move 0 (.written record [])
  let returned : State ρ := written.move 0 (.returned record none)
  have first : (logging records).step state (.evaluate 0 record) = some evaluated := by
    simp [logging, quiet, fresh, evaluated]
  have second : (logging records).step evaluated (.write 0 (.ok ())) = some written := by
    simp [logging, quiet, evaluated, written, State.move, write, writeRecord, encoded, collect]
  have third : (logging records).step written (.look 0) = some returned := by
    simp [logging, quiet, evaluated, written, returned, State.move, finished, decided, adlError, join]
  refine ⟨returned, ?_, fun logged => ?_, fun still => ?_⟩
  · exact Machine.run_cons.mpr ⟨_, first, Machine.run_cons.mpr ⟨_, second, Machine.run_cons.mpr ⟨_, third, rfl⟩⟩⟩
  · have there : returned.calls 0 = some (.returned record none) := by simp [returned, State.move]
    have nowhere : (0, record) ∈ state.stdout ∨ (0, record) ∈ state.exported := logged 0 record there
    rw [stdout, exported] at nowhere
    rcases nowhere with listed | listed <;> cases listed
  · exact Machine.respects_cons first trivial (Machine.respects_cons second (fun _ => still)
      (Machine.respects_cons third (fun _ => still) trivial))

theorem unlogged_of_no_output (enabled : config.enabled = true) (down : ¬ config.BringsUp started) :
    ∃ final, (logging records).run (initial config started) (quietCall record) = some final ∧ ¬ Logged final ∧
      (logging records).Respects (Timely config) (initial config started) (quietCall record) := by
  obtain ⟨silent, alone⟩ := not_or.mp down
  have logger : Logger.new config started = { enabled := true } := by
    rw [new_eq enabled, if_neg silent, decide_eq_false alone]
  obtain ⟨final, ran, missing, timely⟩ := unlogged_of_quiet decided encodes config
    (initial config started) logger rfl rfl rfl
  exact ⟨final, ran, missing, timely rfl⟩

theorem unlogged_after_close (enabled : config.enabled = true) :
    ∃ final, (logging records).run (initial config started)
        ([.discard, .shutDown, .clear] ++ quietCall record) = some final ∧ ¬ Logged final := by
  have closes : (logging records).run (initial config started) [.discard, .shutDown, .clear] =
      some { (initial config started : State ρ) with closing := .closed, logger := { enabled := true } } := by
    simp [Machine.run, logging, initial, new_eq enabled]
  obtain ⟨final, ran, missing, _⟩ := unlogged_of_quiet decided encodes config
    { (initial config started : State ρ) with closing := .closed, logger := { enabled := true } } rfl rfl rfl rfl
  exact ⟨final, Machine.run_append.mpr ⟨_, closes, ran⟩, missing⟩

end Quiet

/-- With decision logging enabled, every decision that is returned without an error is on some
output, in all runs in which records are given to the outputs before the logger is closed,
exactly when some output was brought up. -/
theorem decisions_logged_iff (records : Records ρ) (config : Config) (enabled : config.enabled = true)
    (started : Except Failure Unit) {record : ρ} (decided : records.evalErr record = none)
    (encodes : (records.marshal record).isOk = true) :
    (∀ events final, (logging records).Respects (Timely config) (initial config started) events →
        (logging records).run (initial config started) events = some final → Logged final) ↔
      config.BringsUp started := by
  constructor
  · intro logged
    by_contra down
    obtain ⟨final, ran, missing, timely⟩ := unlogged_of_no_output decided encodes enabled down
    exact missing (logged _ final timely ran)
  · intro up events final timely ran
    have safe := Machine.invariant_of_run
      (fun _ _ _ safe met stepped => Safe.step enabled up safe met stepped) (safe_initial enabled) timely ran
    exact safe.logged

end Runs

section Sample

def evaluationRecords : Records (Record EvaluationRequest EvaluationResponse) where
  evalErr := Record.error
  marshal _ := .ok []

def allowed : Record EvaluationRequest EvaluationResponse :=
  evaluationRecord ⟨[]⟩ true openMoment
    ⟨some (tokenSubject "t1".toList), some readAction, none, none⟩

theorem allowed_error : evaluationRecords.evalErr allowed = none := by
  have decided := evaluate_token (show "t1".toList ≠ [] by decide) none
  simp only [evaluationRecords, allowed, evaluationRecord, evaluation, ↓reduceIte, decided]
  rfl

def documented : Config :=
  { enabled := true, output := "stdout,otlp".toList, otlpEndpoint := "localhost:4317".toList }

def closedMeanwhile : List (Event (Record EvaluationRequest EvaluationResponse)) :=
  [.evaluate 0 allowed, .write 0 (.ok ()), .discard, .look 0, .shutDown, .hand 0, .clear]

theorem documented_decisions_logged :
    ∃ final, (logging evaluationRecords).run (initial documented (.ok ())) closedMeanwhile = some final ∧
      final.closing = .closed ∧ Logged final := by
  obtain ⟨final, ran, closed⟩ := Machine.exists_final (logging evaluationRecords)
    (initial documented (.ok ())) closedMeanwhile (fun final => final.closing = .closed) (by decide +kernel)
  have logged := (decisions_logged_iff evaluationRecords documented rfl (.ok ()) allowed_error rfl).mpr
    (.inl (by decide +kernel))
  exact ⟨final, ran, of_decide_eq_true closed, logged _ final (by decide +kernel) ran⟩

def misspelt : Config := { enabled := true, output := "sdtout".toList }

/-- A decision is returned without a record under a misspelt output, and under the documented
configuration once the logger is closed. -/
theorem decisions_unlogged :
    (∃ final, (logging evaluationRecords).run (initial misspelt (.ok ())) (quietCall allowed) = some final ∧
        ¬ Logged final) ∧
      ∃ final, (logging evaluationRecords).run (initial documented (.ok ()))
          ([.discard, .shutDown, .clear] ++ quietCall allowed) = some final ∧ ¬ Logged final := by
  constructor
  · have down : ¬ misspelt.BringsUp (.ok ()) := by
      unfold Config.BringsUp
      decide +kernel
    obtain ⟨final, ran, missing, _⟩ := unlogged_of_no_output allowed_error rfl rfl down
    exact ⟨final, ran, missing⟩
  · exact unlogged_after_close allowed_error rfl rfl

end Sample

end Eamerald.Adl
