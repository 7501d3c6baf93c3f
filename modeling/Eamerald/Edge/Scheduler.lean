import Eamerald.Foundation.Runs

/-! The scheduler of the edge plugin: a loop that waits for interval ticks and `SyncNow`
requests, the task goroutines it launches, and `Reconfigure`, which cancels the loop's
context and starts another loop. A stopped or reset ticker delivers no earlier tick. -/

set_option autoImplicit false

namespace Eamerald.Edge

open Foundation

/-- A set of modes, as bits. -/
abbrev SyncMode := BitVec 32

def SyncMode.unknown : SyncMode := 0
def SyncMode.full : SyncMode := 1
def SyncMode.diff : SyncMode := 2
def SyncMode.watermark : SyncMode := 4
def SyncMode.manifest : SyncMode := 8

def fold (first second : SyncMode) : SyncMode := first ||| second

def SyncMode.Within (first second : SyncMode) : Prop := first ||| second = second

instance (first second : SyncMode) : Decidable (SyncMode.Within first second) :=
  inferInstanceAs (Decidable (_ = _))

def cycles : Nat := 4

/-- Where a scheduler loop is. It takes the plugin's context anew each time it comes to its
select. -/
inductive Loop where
  | entering
  | selecting (context : Nat)
  | woken
  | starting
  | returned
deriving DecidableEq, Repr

/-- `accepted` and `launched` record the modes received from `SyncNow` and those of started tasks. -/
structure Scheduler where
  loop : Loop := .entering
  armed : Bool := true
  tick : Bool := false
  running : Bool := false
  cycle : Nat := cycles
  intervalMode : SyncMode := .unknown
  onDemandMode : SyncMode := .unknown
  accepted : List SyncMode := []
  launched : List SyncMode := []
deriving DecidableEq, Repr

inductive TaskPhase where
  | spawned (mode : SyncMode)
  | started (mode : SyncMode)
  | tasking (mode : SyncMode)
  | ended
  | resetting
  | queueing
  | sending (mode : SyncMode)
  | closing
deriving DecidableEq, Repr

/-- A task goroutine and the loop that launched it. -/
structure TaskRoutine where
  owner : Nat
  phase : TaskPhase
deriving DecidableEq, Repr

structure Plugin where
  enabled : Bool := true
  context : Nat := 0
  cancelled : List Nat := []
  schedulers : List Scheduler := [{}]
  tasks : List TaskRoutine := []
  senders : List SyncMode := []
deriving DecidableEq, Repr

namespace Scheduler

variable (scheduler : Scheduler)

def stop : Scheduler := { scheduler with armed := false, tick := false }

def reset : Scheduler := { scheduler with armed := true, tick := false }

def Selects : Prop := ∃ context, scheduler.loop = .selecting context

instance : Decidable scheduler.Selects :=
  match phase : scheduler.loop with
  | .selecting context => .isTrue ⟨context, phase⟩
  | .entering | .woken | .starting | .returned =>
      .isFalse fun ⟨_, selecting⟩ => nomatch phase.symm.trans selecting

/-- The next interval run: every fourth one is a diff. -/
def onTick : Scheduler :=
  if scheduler.cycle % cycles = 0 then
    { scheduler.stop with loop := .woken, intervalMode := .diff, cycle := 1 }
  else
    { scheduler.stop with
      loop := .woken, intervalMode := .watermark, cycle := scheduler.cycle + 1 }

def onRequest (mode : SyncMode) : Scheduler :=
  { scheduler.stop with
    loop := .woken
    onDemandMode := fold scheduler.onDemandMode mode
    accepted := mode :: scheduler.accepted }

def runMode : SyncMode :=
  if scheduler.onDemandMode ≠ .unknown then scheduler.onDemandMode else scheduler.intervalMode

def launch : Scheduler :=
  { scheduler with
    loop := .entering
    onDemandMode := .unknown
    launched := scheduler.runMode :: scheduler.launched }

end Scheduler

inductive EdgeEvent where
  | enter (loop : Nat)
  | fire (loop : Nat)
  | tick (loop : Nat)
  | accept (loop sender : Nat)
  | acceptQueued (loop task : Nat)
  | load (loop : Nat)
  | start (loop : Nat)
  | quit (loop : Nat)
  | task (task : Nat)
  | syncNow (mode : SyncMode)
  | disable
  | enable
deriving DecidableEq, Repr

namespace Plugin

variable (state : Plugin)

def change (index : Nat) (apply : Scheduler → Option Scheduler) : Option Plugin :=
  state.schedulers[index]?.bind fun scheduler => (apply scheduler).map fun changed =>
    { state with schedulers := state.schedulers.set index changed }

def enter (index : Nat) : Option Plugin :=
  state.change index fun scheduler =>
    if scheduler.loop = .entering then some { scheduler with loop := .selecting state.context }
    else none

def fire (index : Nat) : Option Plugin :=
  state.change index fun scheduler =>
    if scheduler.armed = true ∧ scheduler.tick = false then some { scheduler with tick := true }
    else none

def tick (index : Nat) : Option Plugin :=
  state.change index fun scheduler =>
    if scheduler.Selects ∧ scheduler.tick = true then some scheduler.onTick else none

def receive (index : Nat) (mode : SyncMode) : Option Plugin :=
  state.change index fun scheduler =>
    if scheduler.Selects then some (scheduler.onRequest mode) else none

def accept (index sender : Nat) : Option Plugin :=
  state.senders[sender]?.bind fun mode =>
    { state with senders := state.senders.eraseIdx sender }.receive index mode

/-- The mode comes from a task goroutine that queued it. -/
def acceptQueued (index task : Nat) : Option Plugin :=
  match state.tasks[task]? with
  | some ⟨owner, .sending mode⟩ =>
      { state with tasks := state.tasks.set task ⟨owner, .closing⟩ }.receive index mode
  | _ => none

def load (index : Nat) : Option Plugin :=
  state.change index fun scheduler =>
    if scheduler.loop = .woken then
      some { scheduler with loop := if scheduler.running then .entering else .starting }
    else none

def start (index : Nat) : Option Plugin :=
  state.schedulers[index]?.bind fun scheduler =>
    if scheduler.loop = .starting then some { state with
      schedulers := state.schedulers.set index scheduler.launch
      tasks := state.tasks ++ [⟨index, .spawned scheduler.runMode⟩] }
    else none

def quit (index : Nat) : Option Plugin :=
  state.change index fun scheduler =>
    match scheduler.loop with
    | .selecting context =>
        if context ∈ state.cancelled then some { scheduler.stop with loop := .returned } else none
    | _ => none

/-- A task goroutine goes on with another phase, and with a change to the loop's variables. -/
def proceed (task owner : Nat) (phase : TaskPhase) (apply : Scheduler → Scheduler) : Option Plugin :=
  { state with tasks := state.tasks.set task ⟨owner, phase⟩ }.change owner fun scheduler =>
    some (apply scheduler)

/-- The next step of a task goroutine. One that queues a mode waits for a loop to take it. -/
def taskStep (task : Nat) : Option Plugin :=
  match state.tasks[task]? with
  | some ⟨owner, .spawned mode⟩ =>
      state.proceed task owner (.started mode) fun scheduler => { scheduler with running := true }
  | some ⟨owner, .started mode⟩ => state.proceed task owner (.tasking mode) id
  | some ⟨owner, .tasking _⟩ => state.proceed task owner .ended id
  | some ⟨owner, .ended⟩ =>
      state.schedulers[owner]?.bind fun scheduler =>
        state.proceed task owner
          (if scheduler.onDemandMode = .unknown then .resetting else .queueing) id
  | some ⟨owner, .resetting⟩ => state.proceed task owner .closing Scheduler.reset
  | some ⟨owner, .queueing⟩ =>
      state.schedulers[owner]?.bind fun scheduler =>
        state.proceed task owner (.sending scheduler.onDemandMode) id
  | some ⟨_, .sending _⟩ => none
  | some ⟨owner, .closing⟩ =>
      { state with tasks := state.tasks.eraseIdx task }.change owner fun scheduler =>
        some { scheduler with running := false }
  | none => none

def disable : Option Plugin :=
  if state.enabled then
    some { state with enabled := false, cancelled := state.context :: state.cancelled }
  else none

def enable : Option Plugin :=
  if state.enabled then none
  else some { state with
    enabled := true, context := state.context + 1, schedulers := state.schedulers ++ [{}] }

end Plugin

def scheduling : Machine Plugin EdgeEvent where
  step state
    | .enter loop => state.enter loop
    | .fire loop => state.fire loop
    | .tick loop => state.tick loop
    | .accept loop sender => state.accept loop sender
    | .acceptQueued loop task => state.acceptQueued loop task
    | .load loop => state.load loop
    | .start loop => state.start loop
    | .quit loop => state.quit loop
    | .task task => state.taskStep task
    | .syncNow mode => some { state with senders := state.senders ++ [mode] }
    | .disable => state.disable
    | .enable => state.enable

def Plugin.executing (state : Plugin) : List TaskRoutine :=
  state.tasks.filter fun task => match task.phase with
    | .tasking _ => true
    | _ => false

end Eamerald.Edge
