import Eamerald.Edge.Scheduler

/-! What holds of the edge scheduler over whole runs: when at most one task is in progress,
and when the scheduler neither stalls nor forgets a request. -/

set_option autoImplicit false

namespace Eamerald.Edge

open Foundation

variable {next : Plugin} {task : Nat} {index : Nat} {apply : Scheduler → Option Scheduler}
  {owner : Nat} {phase : TaskPhase} {old : TaskPhase} {mode : SyncMode}

section Changes

variable {state next : Plugin} {index : Nat} {apply : Scheduler → Option Scheduler}

theorem change_eq_some : state.change index apply = some next ↔
      ∃ scheduler changed, state.schedulers[index]? = some scheduler ∧ apply scheduler = some changed ∧
        next = { state with schedulers := state.schedulers.set index changed } := by
  simp only [Plugin.change, Option.bind_eq_some_iff, Option.map_eq_some_iff]
  constructor
  · rintro ⟨scheduler, found, changed, applied, rfl⟩
    exact ⟨scheduler, changed, found, applied, rfl⟩
  · rintro ⟨scheduler, changed, found, applied, rfl⟩
    exact ⟨scheduler, found, changed, applied, rfl⟩

theorem guarded_eq_some {condition : Prop} [Decidable condition] {value result : Scheduler} :
    (if condition then some value else none) = some result ↔ condition ∧ value = result := by
  split
  case isTrue holds => simp [holds]
  case isFalse fails => simp [fails]

end Changes

section Mutual

def TaskPhase.isSpawned : TaskPhase → Bool
  | .spawned _ => true
  | _ => false

/-- No loop wakes up before its task has set the running flag, and the plugin is enabled only when all
earlier loops and tasks are over. -/
def Careful (state : Plugin) : EdgeEvent → Prop
  | .tick loop | .accept loop _ | .acceptQueued loop _ =>
      ∀ task ∈ state.tasks, task.owner = loop → task.phase.isSpawned = false
  | .enable => (∀ scheduler ∈ state.schedulers, scheduler.loop = .returned) ∧ state.tasks = []
  | _ => True

/-- Only the last loop is alive, and once it is awake a task that is left has set its flag. -/
structure Scheduler.Alone (tasks : List TaskRoutine) (count index : Nat) (scheduler : Scheduler) :
    Prop where
  last : scheduler.loop ≠ .returned → index + 1 = count
  woken : scheduler.loop = .woken →
    ∀ task ∈ tasks, task.owner = index → task.phase.isSpawned = false
  starting : scheduler.loop = .starting → tasks = []
  running : ∀ task ∈ tasks, task.owner = index → task.phase.isSpawned = false →
    scheduler.running = true

structure Plugin.Alone (state : Plugin) : Prop where
  tasks : state.tasks.length ≤ 1
  owner : ∀ task ∈ state.tasks, task.owner + 1 = state.schedulers.length
  schedulers : ∀ (index : Nat) (scheduler : Scheduler), state.schedulers[index]? = some scheduler →
    scheduler.Alone state.tasks state.schedulers.length index

variable {state : Plugin}

theorem Plugin.Alone.only (alone : state.Alone) {routine : TaskRoutine}
    (found : state.tasks[task]? = some routine) : task = 0 ∧ state.tasks = [routine] := by
  have few := alone.tasks
  cases tasks : state.tasks with
  | nil => simp [tasks] at found
  | cons first rest =>
      obtain rfl : rest = [] := by
        rw [tasks] at few
        exact List.length_eq_zero_iff.mp (by simpa using few)
      rw [tasks] at found
      cases task with
      | zero => exact ⟨rfl, by simpa using found⟩
      | succ task => simp at found

theorem Plugin.Alone.set (alone : state.Alone) {changed : Scheduler}
    (kept : changed.Alone state.tasks state.schedulers.length index) :
    { state with schedulers := state.schedulers.set index changed }.Alone := by
  refine ⟨alone.tasks, fun task member => ?_, fun other scheduler found => ?_⟩
  · rw [List.length_set]
    exact alone.owner task member
  · rw [List.length_set]
    by_cases same : index = other
    · subst same
      rw [List.getElem?_set_self'] at found
      obtain ⟨_, _, rfl⟩ := Option.map_eq_some_iff.mp found
      exact kept
    · rw [List.getElem?_set_ne same] at found
      exact alone.schedulers other scheduler found

theorem Plugin.Alone.change (alone : state.Alone) (kept : ∀ scheduler changed, apply scheduler = some changed →
      scheduler.Alone state.tasks state.schedulers.length index →
      changed.Alone state.tasks state.schedulers.length index)
    (changes : state.change index apply = some next) : next.Alone := by
  obtain ⟨scheduler, changed, found, applied, rfl⟩ := change_eq_some.mp changes
  exact alone.set (kept scheduler changed applied (alone.schedulers index scheduler found))

theorem Plugin.Alone.moveTask (alone : state.Alone)
    (found : state.tasks[task]? = some ⟨owner, old⟩) (set : phase.isSpawned = false)
    (loops : ∀ scheduler changed, apply scheduler = some changed → changed.loop = .starting →
      scheduler.loop = .starting) (flagged : ∀ scheduler changed, state.schedulers[owner]? = some scheduler →
      apply scheduler = some changed → changed.running = true)
    (moves : { state with tasks := state.tasks.set task ⟨owner, phase⟩ }.change owner apply =
      some next) : next.Alone := by
  obtain ⟨rfl, tasks⟩ := alone.only found
  obtain ⟨scheduler, changed, here, applied, rfl⟩ := change_eq_some.mp moves
  have last := alone.owner ⟨owner, old⟩ (by simp [tasks])
  have single : state.tasks.set 0 ⟨owner, phase⟩ = [⟨owner, phase⟩] := by rw [tasks]; rfl
  have others (index : Nat) (other : Scheduler) (there : state.schedulers[index]? = some other) :
      other.loop ≠ .starting := by
    intro starting
    have none := (alone.schedulers index other there).starting starting
    rw [tasks] at none
    cases none
  simp only [single]
  refine ⟨le_rfl, fun routine member => ?_, fun index other there => ?_⟩
  · rw [List.mem_singleton.mp member, List.length_set]
    exact last
  · rw [List.length_set]
    by_cases same : owner = index
    · subst same
      rw [List.getElem?_set_self'] at there
      obtain ⟨_, _, rfl⟩ := Option.map_eq_some_iff.mp there
      refine ⟨fun _ => last, fun _ routine member _ => ?_, fun starting => ?_,
        fun _ _ _ _ => flagged scheduler changed here applied⟩
      · rw [List.mem_singleton.mp member]
        exact set
      · exact absurd (loops scheduler changed applied starting) (others owner scheduler here)
    · rw [List.getElem?_set_ne same] at there
      have before := alone.schedulers index other there
      refine ⟨before.last, fun _ routine member owned => ?_, fun starting => ?_,
        fun routine member owned => ?_⟩
      · rw [List.mem_singleton.mp member] at owned
        exact absurd owned same
      · exact absurd starting (others index other there)
      · rw [List.mem_singleton.mp member] at owned
        exact absurd owned same

theorem Plugin.Alone.flagged (alone : state.Alone)
    (found : state.tasks[task]? = some ⟨owner, phase⟩) (set : phase.isSpawned = false)
    (scheduler : Scheduler) (here : state.schedulers[owner]? = some scheduler) : scheduler.running = true :=
  (alone.schedulers owner scheduler here).running ⟨owner, phase⟩ (List.mem_of_getElem? found) rfl set

theorem Plugin.Alone.proceed (alone : state.Alone)
    (found : state.tasks[task]? = some ⟨owner, old⟩) (before : old.isSpawned = false)
    (after : phase.isSpawned = false) {apply : Scheduler → Scheduler}
    (loops : ∀ scheduler, (apply scheduler).loop = scheduler.loop)
    (flags : ∀ scheduler, (apply scheduler).running = scheduler.running) (proceeds : state.proceed task owner phase apply = some next) : next.Alone := by
  refine alone.moveTask found after (fun scheduler changed applied starting => ?_)
    (fun scheduler changed here applied => ?_) proceeds
  · cases applied
    rwa [loops] at starting
  · cases applied
    rw [flags]
    exact alone.flagged found before scheduler here

theorem Plugin.Alone.owner_eq (alone : state.Alone) {scheduler : Scheduler}
    (here : state.schedulers[index]? = some scheduler) (alive : scheduler.loop ≠ .returned)
    {routine : TaskRoutine} (member : routine ∈ state.tasks) : routine.owner = index := by
  have last := (alone.schedulers index scheduler here).last alive
  have owner := alone.owner routine member
  omega

theorem Plugin.Alone.receive (alone : state.Alone)
    (set : ∀ task ∈ state.tasks, task.owner = index → task.phase.isSpawned = false) (received : state.receive index mode = some next) : next.Alone := by
  refine alone.change (fun scheduler changed applied before => ?_) received
  obtain ⟨⟨context, selecting⟩, rfl⟩ := guarded_eq_some.mp applied
  exact ⟨fun _ => before.last (by rw [selecting]; exact (nomatch ·)), fun _ => set,
    (nomatch ·), before.running⟩

theorem Plugin.Alone.acceptQueued (alone : state.Alone)
    (accepted : state.acceptQueued index task = some next) : next.Alone := by
  simp only [Plugin.acceptQueued] at accepted
  split at accepted
  case h_1 owner mode found =>
    obtain ⟨scheduler, changed, here, applied, _⟩ := change_eq_some.mp accepted
    obtain ⟨⟨context, selecting⟩, _⟩ := guarded_eq_some.mp applied
    obtain rfl : owner = index := alone.owner_eq here (by rw [selecting]; exact (nomatch ·))
      (List.mem_of_getElem? found)
    refine alone.moveTask found rfl (fun other result applies starting => ?_)
      (fun other result there applies => ?_) accepted
    · obtain ⟨_, rfl⟩ := guarded_eq_some.mp applies
      cases starting
    · obtain ⟨_, rfl⟩ := guarded_eq_some.mp applies
      exact alone.flagged found rfl other there
  case h_2 => cases accepted

theorem Plugin.Alone.load (alone : state.Alone) (loaded : state.load index = some next) : next.Alone := by
  obtain ⟨scheduler, changed, here, applied, rfl⟩ := change_eq_some.mp loaded
  obtain ⟨woken, rfl⟩ := guarded_eq_some.mp applied
  have before := alone.schedulers index scheduler here
  have alive : scheduler.loop ≠ .returned := by
    rw [woken]
    exact (nomatch ·)
  refine alone.set ⟨fun _ => before.last alive, fun again => ?_, fun starting => ?_, before.running⟩
  · exact before.woken woken
  · -- a task that is left has set the flag, and then the loop does not start another
    refine List.eq_nil_iff_forall_not_mem.mpr fun routine member => ?_
    have owned := alone.owner_eq here alive member
    have set := before.running routine member owned (before.woken woken routine member owned)
    rw [set] at starting
    cases starting

theorem Plugin.Alone.start (alone : state.Alone) (started : state.start index = some next) : next.Alone := by
  simp only [Plugin.start, Option.bind_eq_some_iff] at started
  obtain ⟨scheduler, here, launches⟩ := started
  split at launches
  case isTrue starting =>
    cases launches
    have before := alone.schedulers index scheduler here
    have none := before.starting starting
    have last := before.last (by rw [starting]; exact (nomatch ·))
    rw [none]
    refine ⟨le_rfl, fun routine member => ?_, fun other found there => ?_⟩
    · rw [List.mem_singleton.mp member, List.length_set]
      exact last
    · rw [List.length_set]
      by_cases same : index = other
      · subst same
        rw [List.getElem?_set_self'] at there
        obtain ⟨_, _, rfl⟩ := Option.map_eq_some_iff.mp there
        refine ⟨fun _ => last, (nomatch ·), (nomatch ·), fun routine member _ set => ?_⟩
        rw [List.mem_singleton.mp member] at set
        cases set
      · rw [List.getElem?_set_ne same] at there
        have kept := alone.schedulers other found there
        -- the other loops have returned
        have gone : found.loop = .returned := by
          by_contra alive
          have also := kept.last alive
          omega
        refine ⟨kept.last, fun woken => ?_, fun starts => ?_, fun routine member owned => ?_⟩
        · exact nomatch gone.symm.trans woken
        · exact nomatch gone.symm.trans starts
        · rw [List.mem_singleton.mp member] at owned
          exact absurd owned same
  case isFalse => cases launches

theorem Plugin.Alone.taskStep (alone : state.Alone)
    (stepped : state.taskStep task = some next) : next.Alone := by
  simp only [Plugin.taskStep] at stepped
  split at stepped
  case h_1 owner mode found =>
    refine alone.moveTask found rfl (fun scheduler changed applied starting => ?_)
      (fun scheduler changed _ applied => ?_) stepped
    · cases applied
      exact starting
    · cases applied
      rfl
  case h_2 owner mode found => exact alone.proceed found rfl rfl (fun _ => rfl) (fun _ => rfl) stepped
  case h_3 owner mode found => exact alone.proceed found rfl rfl (fun _ => rfl) (fun _ => rfl) stepped
  case h_4 owner found =>
    obtain ⟨scheduler, _, proceeds⟩ := Option.bind_eq_some_iff.mp stepped
    refine alone.proceed found rfl ?_ (fun _ => rfl) (fun _ => rfl) proceeds
    split
    case isTrue => rfl
    case isFalse => rfl
  case h_5 owner found =>
    exact alone.proceed found rfl rfl (fun _ => by rfl) (fun _ => by rfl) stepped
  case h_6 owner found =>
    obtain ⟨scheduler, _, proceeds⟩ := Option.bind_eq_some_iff.mp stepped
    exact alone.proceed found rfl rfl (fun _ => rfl) (fun _ => rfl) proceeds
  case h_7 => cases stepped
  case h_8 owner found =>
    obtain ⟨rfl, tasks⟩ := alone.only found
    have finished : { state with tasks := state.tasks.eraseIdx 0 }.Alone := by
      rw [tasks]
      refine ⟨Nat.zero_le _, fun routine member => (nomatch member), fun index other there => ?_⟩
      exact ⟨(alone.schedulers index other there).last, fun _ _ member => (nomatch member),
        fun _ => rfl, fun _ member => (nomatch member)⟩
    refine finished.change (fun scheduler changed applied before => ?_) stepped
    cases applied
    refine ⟨before.last, before.woken, before.starting, fun routine member => ?_⟩
    rw [tasks] at member
    cases member
  case h_9 => cases stepped

theorem Plugin.Alone.enable (alone : state.Alone)
    (returned : ∀ scheduler ∈ state.schedulers, scheduler.loop = .returned)
    (none : state.tasks = []) (enabled : state.enable = some next) : next.Alone := by
  simp only [Plugin.enable] at enabled
  split at enabled
  case isTrue => cases enabled
  case isFalse =>
    cases enabled
    refine ⟨alone.tasks, fun routine member => ?_, fun index scheduler found => ?_⟩
    · rw [none] at member
      cases member
    · rw [none]
      refine ⟨fun alive => ?_, fun _ _ member => (nomatch member), fun _ => rfl,
        fun _ member => (nomatch member)⟩
      rw [List.length_append, List.length_singleton]
      by_cases old : index < state.schedulers.length
      · rw [List.getElem?_append_left old] at found
        exact absurd (returned scheduler (List.mem_of_getElem? found)) alive
      · obtain ⟨within, _⟩ := List.getElem?_eq_some_iff.mp found
        rw [List.length_append, List.length_singleton] at within
        omega

theorem alone_step (state : Plugin) (event : EdgeEvent) (next : Plugin) (alone : state.Alone)
    (careful : Careful state event) (stepped : scheduling.step state event = some next) : next.Alone := by
  cases event with
  | enter index =>
      refine alone.change (fun scheduler changed applied before => ?_) stepped
      obtain ⟨entering, rfl⟩ := guarded_eq_some.mp applied
      exact ⟨fun _ => before.last (by rw [entering]; exact (nomatch ·)), (nomatch ·), (nomatch ·),
        before.running⟩
  | fire index =>
      refine alone.change (fun scheduler changed applied before => ?_) stepped
      obtain ⟨_, rfl⟩ := guarded_eq_some.mp applied
      exact ⟨before.last, before.woken, before.starting, before.running⟩
  | tick index =>
      refine alone.change (fun scheduler changed applied before => ?_) stepped
      obtain ⟨⟨⟨context, selecting⟩, _⟩, rfl⟩ := guarded_eq_some.mp applied
      have last := before.last (by rw [selecting]; exact (nomatch ·))
      unfold Scheduler.onTick
      split
      case isTrue => exact ⟨fun _ => last, fun _ => careful, (nomatch ·), before.running⟩
      case isFalse => exact ⟨fun _ => last, fun _ => careful, (nomatch ·), before.running⟩
  | accept index sender =>
      obtain ⟨mode, _, received⟩ := Option.bind_eq_some_iff.mp stepped
      have heard : { state with senders := state.senders.eraseIdx sender }.Alone :=
        ⟨alone.tasks, alone.owner, alone.schedulers⟩
      exact heard.receive careful received
  | acceptQueued index task => exact alone.acceptQueued stepped
  | load index => exact alone.load stepped
  | start index => exact alone.start stepped
  | quit index =>
      refine alone.change (fun scheduler changed applied before => ?_) stepped
      split at applied
      case h_1 =>
        obtain ⟨_, rfl⟩ := guarded_eq_some.mp applied
        exact ⟨fun alive => absurd rfl alive, (nomatch ·), (nomatch ·), before.running⟩
      case h_2 => cases applied
  | task index => exact alone.taskStep stepped
  | syncNow mode =>
      cases stepped
      exact ⟨alone.tasks, alone.owner, alone.schedulers⟩
  | disable =>
      simp only [scheduling, Plugin.disable] at stepped
      split at stepped
      case isTrue =>
        cases stepped
        exact ⟨alone.tasks, alone.owner, alone.schedulers⟩
      case isFalse => cases stepped
  | enable => exact alone.enable careful.1 careful.2 stepped

theorem alone_initial : Plugin.Alone {} := by
  refine ⟨Nat.zero_le _, fun routine member => (nomatch member), fun index scheduler found => ?_⟩
  cases index with
  | zero =>
      cases found
      exact ⟨fun _ => rfl, (nomatch ·), (nomatch ·), fun _ member => (nomatch member)⟩
  | succ index => cases found

/-- In every run in which loops wake up and the plugin is enabled with care, at most one task is
in progress at any moment. -/
theorem at_most_one_task (events : List EdgeEvent) (state : Plugin)
    (careful : scheduling.Respects Careful {} events)
    (ran : scheduling.run {} events = some state) : state.executing.length ≤ 1 :=
  (List.length_filter_le _ _).trans
    (Machine.invariant_of_run alone_step alone_initial careful ran).tasks

instance decidableCareful (state : Plugin) : (event : EdgeEvent) → Decidable (Careful state event)
  | .tick loop | .accept loop _ | .acceptQueued loop _ => inferInstanceAs (Decidable
      (∀ task ∈ state.tasks, task.owner = loop → task.phase.isSpawned = false))
  | .enable => inferInstanceAs (Decidable (_ ∧ _))
  | .enter _ | .fire _ | .load _ | .start _ | .quit _ | .task _ | .syncNow _ | .disable =>
      .isTrue trivial

def firstTask : List EdgeEvent := [.enter 0, .fire 0, .tick 0, .load 0, .start 0]

def carefulRun : List EdgeEvent :=
  firstTask ++ [.task 0, .task 0, .syncNow .diff, .enter 0, .accept 0 0, .load 0]

theorem carefulRun_one_task :
    ∃ state, scheduling.run {} carefulRun = some state ∧ state.executing ≠ [] ∧
      state.executing.length ≤ 1 := by
  obtain ⟨state, ran, busy⟩ := scheduling.exists_final {} carefulRun
    (fun state => state.executing ≠ []) (by decide +kernel)
  exact ⟨state, ran, of_decide_eq_true busy,
    at_most_one_task carefulRun state (by decide +kernel) ran⟩

def hastyRun : List EdgeEvent :=
  firstTask ++ [.syncNow .diff, .enter 0, .accept 0 0, .load 0, .start 0, .task 0, .task 0, .task 1,
    .task 1]

theorem hastyRun_two_tasks :
    ∃ state, scheduling.run {} hastyRun = some state ∧ state.executing.length = 2 := by
  obtain ⟨state, ran, busy⟩ := scheduling.exists_final {} hastyRun
    (fun state => state.executing.length = 2) (by decide +kernel)
  exact ⟨state, ran, of_decide_eq_true busy⟩

end Mutual

section Attention

variable {tasks : List TaskRoutine} {holds : TaskRoutine → Prop}

/-- The goroutine still looks for a queued mode, or has one to send. -/
def TaskPhase.pending : TaskPhase → Bool
  | .spawned _ | .started _ | .tasking _ | .ended | .queueing | .sending _ => true
  | .resetting | .closing => false

def TaskPhase.beforeCheck : TaskPhase → Bool
  | .spawned _ | .started _ | .tasking _ | .ended => true
  | _ => false

/-- A loop that finds the running flag set leaves its request to a task that has yet to look for
one. -/
def Timely (state : Plugin) : EdgeEvent → Prop
  | .load loop => ∀ scheduler ∈ state.schedulers[loop]?, scheduler.running = true →
      ∃ task ∈ state.tasks, task.phase.beforeCheck = true
  | _ => True

/-- The timer, the loop or a task looks after the requests, and no accepted mode is lost. -/
structure Scheduler.Attended (tasks : List TaskRoutine) (scheduler : Scheduler) : Prop where
  watched : (scheduler.armed = true ∧ scheduler.onDemandMode = .unknown) ∨
    scheduler.loop = .woken ∨ scheduler.loop = .starting ∨
    (∃ task ∈ tasks, task.phase.pending = true) ∨
    (scheduler.onDemandMode = .unknown ∧ ∃ task ∈ tasks, task.phase = .resetting)
  covered : ∀ mode ∈ scheduler.accepted, mode.Within scheduler.onDemandMode ∨
    ∃ run ∈ scheduler.launched, mode.Within run
  launched : tasks ≠ [] ∨ scheduler.running = true → scheduler.launched ≠ []
  answered : scheduler.accepted ≠ [] →
    scheduler.launched ≠ [] ∨ scheduler.loop = .woken ∨ scheduler.loop = .starting

/-- The plugin stays enabled, so there is the one loop. -/
structure Plugin.Attended (state : Plugin) (scheduler : Scheduler) : Prop where
  enabled : state.enabled = true
  cancelled : state.cancelled = []
  only : state.schedulers = [scheduler]
  attended : scheduler.Attended state.tasks

variable {state : Plugin} {scheduler : Scheduler}

theorem change_single (only : state.schedulers = [scheduler]) (changes : state.change index apply = some next) :
    ∃ changed, apply scheduler = some changed ∧ next = { state with schedulers := [changed] } := by
  obtain ⟨found, changed, here, applied, rfl⟩ := change_eq_some.mp changes
  rw [only] at here
  cases index with
  | zero =>
      cases here
      exact ⟨changed, applied, by rw [only]; rfl⟩
  | succ index => cases here

theorem exists_mem_set {old new : TaskRoutine} (found : tasks[task]? = some old) (kept : holds old → holds new)
    (some : ∃ routine ∈ tasks, holds routine) : ∃ routine ∈ tasks.set task new, holds routine := by
  obtain ⟨routine, member, held⟩ := some
  obtain ⟨index, there⟩ := List.mem_iff_getElem?.mp member
  by_cases same : task = index
  · subst same
    cases found.symm.trans there
    obtain ⟨within, _⟩ := List.getElem?_eq_some_iff.mp there
    exact ⟨new, List.mem_set within new, kept held⟩
  · refine ⟨routine, List.mem_of_getElem? (i := index) ?_, held⟩
    rw [List.getElem?_set_ne same, there]

theorem exists_mem_eraseIdx {old : TaskRoutine} (found : tasks[task]? = some old) (gone : ¬holds old)
    (some : ∃ routine ∈ tasks, holds routine) : ∃ routine ∈ tasks.eraseIdx task, holds routine := by
  obtain ⟨routine, member, held⟩ := some
  obtain ⟨index, there⟩ := List.mem_iff_getElem?.mp member
  refine ⟨routine, List.mem_eraseIdx_iff_getElem?.mpr ⟨index, ?_, there⟩, held⟩
  rintro rfl
  cases found.symm.trans there
  exact gone held

theorem within_fold_left {first : SyncMode} (within : mode.Within first) (second : SyncMode) :
    mode.Within (fold first second) := by
  unfold SyncMode.Within fold at *
  rw [← BitVec.or_assoc, within]

theorem within_fold_right (first mode : SyncMode) : mode.Within (fold first mode) := by
  unfold SyncMode.Within fold
  rw [BitVec.or_comm first, ← BitVec.or_assoc, BitVec.or_self]

theorem within_of_unknown (within : mode.Within .unknown) (other : SyncMode) : mode.Within other := by
  have empty : mode = 0 := by simpa [SyncMode.Within, SyncMode.unknown] using within
  simp [SyncMode.Within, empty]

section Loop

variable {tasks : List TaskRoutine} (attended : scheduler.Attended tasks)

include attended

theorem Scheduler.Attended.onRequest {others : List TaskRoutine} (mode : SyncMode)
    (some : others ≠ [] → tasks ≠ []) : (scheduler.onRequest mode).Attended others := by
  refine ⟨.inr (.inl rfl), fun accepted member => ?_, fun busy => attended.launched ?_,
    fun _ => .inr (.inl rfl)⟩
  · rcases List.mem_cons.mp member with rfl | earlier
    · exact .inl (within_fold_right _ accepted)
    · rcases attended.covered accepted earlier with queued | ran
      · exact .inl (within_fold_left queued mode)
      · exact .inr ran
  · exact busy.imp some id

theorem Scheduler.Attended.onTick : scheduler.onTick.Attended tasks := by
  unfold Scheduler.onTick
  split
  case isTrue =>
    exact ⟨.inr (.inl rfl), attended.covered, attended.launched, fun _ => .inr (.inl rfl)⟩
  case isFalse =>
    exact ⟨.inr (.inl rfl), attended.covered, attended.launched, fun _ => .inr (.inl rfl)⟩

theorem Scheduler.Attended.launch (index : Nat) :
    scheduler.launch.Attended (tasks ++ [⟨index, .spawned scheduler.runMode⟩]) := by
  refine ⟨.inr (.inr (.inr (.inl ⟨_, List.mem_append_right _ (List.mem_singleton_self _), rfl⟩))),
    fun mode member => ?_, fun _ => List.cons_ne_nil _ _, fun _ => .inl (List.cons_ne_nil _ _)⟩
  rcases attended.covered mode member with queued | ⟨run, earlier, ran⟩
  · refine .inr ⟨scheduler.runMode, List.mem_cons_self, ?_⟩
    unfold Scheduler.runMode
    split
    case isTrue => exact queued
    case isFalse unset => exact within_of_unknown (not_not.mp unset ▸ queued) _
  · exact .inr ⟨run, List.mem_cons_of_mem _ earlier, ran⟩

theorem Scheduler.Attended.pends (found : tasks[task]? = some ⟨owner, old⟩) (idle : old ≠ .resetting)
    (pending : phase.pending = true) : scheduler.Attended (tasks.set task ⟨owner, phase⟩) := by
  have there := List.mem_of_getElem? found
  refine ⟨attended.watched.imp id (Or.imp id (Or.imp id (Or.imp ?_ ?_))), attended.covered,
    fun busy => attended.launched ?_, attended.answered⟩
  · exact exists_mem_set found fun _ => pending
  · rintro ⟨unset, resetting⟩
    exact ⟨unset, exists_mem_set found (fun reset => absurd reset idle) resetting⟩
  · exact busy.imp (fun _ => List.ne_nil_of_mem there) id

theorem Scheduler.Attended.resets
    (found : tasks[task]? = some ⟨owner, old⟩) (unset : scheduler.onDemandMode = .unknown) :
    scheduler.Attended (tasks.set task ⟨owner, .resetting⟩) := by
  have there := List.mem_of_getElem? found
  obtain ⟨within, _⟩ := List.getElem?_eq_some_iff.mp found
  refine ⟨.inr (.inr (.inr (.inr ⟨unset, _, List.mem_set within _, rfl⟩))), attended.covered,
    fun busy => attended.launched ?_, attended.answered⟩
  exact busy.imp (fun _ => List.ne_nil_of_mem there) id

theorem Scheduler.Attended.armed (found : tasks[task]? = some ⟨owner, .resetting⟩) :
    scheduler.reset.Attended (tasks.set task ⟨owner, .closing⟩) := by
  have there := List.mem_of_getElem? found
  refine ⟨?_, attended.covered, fun busy => attended.launched ?_, attended.answered⟩
  · rcases attended.watched with ⟨_, unset⟩ | woken | starting | pending | ⟨unset, _⟩
    · exact .inl ⟨rfl, unset⟩
    · exact .inr (.inl woken)
    · exact .inr (.inr (.inl starting))
    · exact .inr (.inr (.inr (.inl (exists_mem_set found (nomatch ·) pending))))
    · exact .inl ⟨rfl, unset⟩
  · exact busy.imp (fun _ => List.ne_nil_of_mem there) id

theorem Scheduler.Attended.closes (found : tasks[task]? = some ⟨owner, .closing⟩) :
    { scheduler with running := false }.Attended (tasks.eraseIdx task) := by
  have there := List.mem_of_getElem? found
  refine ⟨attended.watched.imp id (Or.imp id (Or.imp id (Or.imp ?_ ?_))), attended.covered,
    fun busy => attended.launched ?_, attended.answered⟩
  · exact exists_mem_eraseIdx found (nomatch ·)
  · rintro ⟨unset, resetting⟩
    exact ⟨unset, exists_mem_eraseIdx found (nomatch ·) resetting⟩
  · exact .inl (List.ne_nil_of_mem there)

end Loop

theorem pending_of_beforeCheck (before : phase.beforeCheck = true) : phase.pending = true := by
  cases phase with
  | spawned mode => rfl
  | started mode => rfl
  | tasking mode => rfl
  | ended => rfl
  | _ => cases before

theorem Plugin.Attended.single (attended : state.Attended scheduler)
    {found : Scheduler} (there : state.schedulers[index]? = some found) : found = scheduler ∧ index = 0 := by
  rw [attended.only] at there
  cases index with
  | zero => exact ⟨by simpa using there.symm, rfl⟩
  | succ index => cases there

theorem Plugin.Attended.replace (attended : state.Attended scheduler) {changed : Scheduler} {senders : List SyncMode} (kept : changed.Attended tasks) :
    { state with schedulers := [changed], tasks, senders }.Attended changed :=
  ⟨attended.enabled, attended.cancelled, rfl, kept⟩

theorem Plugin.Attended.taskStep (attended : state.Attended scheduler)
    (stepped : state.taskStep task = some next) : ∃ changed, next.Attended changed := by
  have here := attended.attended
  have proceeds {owner : Nat} {phase : TaskPhase} {apply : Scheduler → Scheduler}
      (moves : state.proceed task owner phase apply = some next)
      (kept : (apply scheduler).Attended (state.tasks.set task ⟨owner, phase⟩)) :
      ∃ changed, next.Attended changed := by
    have only : { state with tasks := state.tasks.set task ⟨owner, phase⟩ }.schedulers =
      [scheduler] := attended.only
    obtain ⟨changed, applied, rfl⟩ := change_single only moves
    cases applied
    exact ⟨_, attended.replace kept⟩
  have reads {owner : Nat} {resume : Scheduler → Option Plugin}
      (read : (state.schedulers[owner]?.bind resume) = some next) :
      resume scheduler = some next := by
    obtain ⟨found, there, resumed⟩ := Option.bind_eq_some_iff.mp read
    rwa [(attended.single there).1] at resumed
  simp only [Plugin.taskStep] at stepped
  split at stepped
  case h_1 owner mode found =>
    refine proceeds stepped ?_
    obtain ⟨watched, covered, launched, answered⟩ := here.pends found (nomatch ·)
      (rfl : (TaskPhase.started mode).pending = true)
    exact ⟨watched, covered, fun _ => here.launched
      (.inl (List.ne_nil_of_mem (List.mem_of_getElem? found))), answered⟩
  case h_2 owner mode found => exact proceeds stepped (here.pends found (nomatch ·) rfl)
  case h_3 owner mode found => exact proceeds stepped (here.pends found (nomatch ·) rfl)
  case h_4 owner found =>
    have moves := reads stepped
    split at moves
    case isTrue unset => exact proceeds moves (here.resets found unset)
    case isFalse => exact proceeds moves (here.pends found (nomatch ·) rfl)
  case h_5 owner found => exact proceeds stepped (here.armed found)
  case h_6 owner found => exact proceeds (reads stepped) (here.pends found (nomatch ·) rfl)
  case h_7 => cases stepped
  case h_8 owner found =>
    have only : { state with tasks := state.tasks.eraseIdx task }.schedulers = [scheduler] :=
      attended.only
    obtain ⟨changed, applied, rfl⟩ := change_single only stepped
    cases applied
    exact ⟨_, attended.replace (here.closes found)⟩
  case h_9 => cases stepped

theorem attended_step (state : Plugin) (event : EdgeEvent) (next : Plugin)
    (attended : ∃ scheduler, state.Attended scheduler) (condition : Timely state event ∧ event ≠ .disable)
    (stepped : scheduling.step state event = some next) : ∃ scheduler, next.Attended scheduler := by
  obtain ⟨scheduler, attended⟩ := attended
  obtain ⟨timely, steady⟩ := condition
  have here := attended.attended
  cases event with
  | enter index =>
      obtain ⟨changed, applied, rfl⟩ := change_single attended.only stepped
      obtain ⟨entering, rfl⟩ := guarded_eq_some.mp applied
      have awake : scheduler.loop ≠ .woken ∧ scheduler.loop ≠ .starting := by
        rw [entering]
        exact ⟨(nomatch ·), (nomatch ·)⟩
      refine ⟨_, attended.replace ⟨?_, here.covered, here.launched, fun heard => ?_⟩⟩
      · exact here.watched.imp id fun others => .inr (.inr
          ((others.resolve_left awake.1).resolve_left awake.2))
      · exact .inl (((here.answered heard).resolve_right fun others => others.elim awake.1 awake.2))
  | fire index =>
      obtain ⟨changed, applied, rfl⟩ := change_single attended.only stepped
      obtain ⟨_, rfl⟩ := guarded_eq_some.mp applied
      exact ⟨_, attended.replace ⟨here.watched, here.covered, here.launched, here.answered⟩⟩
  | tick index =>
      obtain ⟨changed, applied, rfl⟩ := change_single attended.only stepped
      obtain ⟨_, rfl⟩ := guarded_eq_some.mp applied
      exact ⟨_, attended.replace here.onTick⟩
  | accept index sender =>
      obtain ⟨mode, _, received⟩ := Option.bind_eq_some_iff.mp stepped
      have only : { state with senders := state.senders.eraseIdx sender }.schedulers = [scheduler] :=
        attended.only
      obtain ⟨changed, applied, rfl⟩ := change_single only received
      obtain ⟨_, rfl⟩ := guarded_eq_some.mp applied
      exact ⟨_, attended.replace (here.onRequest mode id)⟩
  | acceptQueued index task =>
      simp only [scheduling, Plugin.acceptQueued] at stepped
      split at stepped
      case h_1 owner mode found =>
        have only : { state with tasks := state.tasks.set task ⟨owner, .closing⟩ }.schedulers =
          [scheduler] := attended.only
        obtain ⟨changed, applied, rfl⟩ := change_single only stepped
        obtain ⟨_, rfl⟩ := guarded_eq_some.mp applied
        exact ⟨_, attended.replace (here.onRequest mode fun _ =>
          List.ne_nil_of_mem (List.mem_of_getElem? found))⟩
      case h_2 => cases stepped
  | load index =>
      obtain ⟨found, _, there, _, _⟩ := change_eq_some.mp stepped
      obtain ⟨changed, applied, rfl⟩ := change_single attended.only stepped
      obtain ⟨woken, rfl⟩ := guarded_eq_some.mp applied
      obtain ⟨rfl, rfl⟩ := attended.single there
      by_cases running : found.running = true
      · -- the request is left to a task that has yet to look for one
        obtain ⟨task, member, before⟩ := timely found there running
        exact ⟨_, attended.replace
          ⟨.inr (.inr (.inr (.inl ⟨task, member, pending_of_beforeCheck before⟩))), here.covered,
            here.launched, fun _ => .inl (here.launched (.inr running))⟩⟩
      · exact ⟨_, attended.replace ⟨.inr (.inr (.inl (if_neg running))), here.covered,
          here.launched, fun _ => .inr (.inr (if_neg running))⟩⟩
  | start index =>
      obtain ⟨found, there, launches⟩ := Option.bind_eq_some_iff.mp stepped
      obtain ⟨rfl, rfl⟩ := attended.single there
      split at launches
      case isTrue =>
        cases launches
        refine ⟨found.launch, attended.enabled, attended.cancelled, ?_, here.launch 0⟩
        simp only [attended.only]
        rfl
      case isFalse => cases launches
  | quit index =>
      obtain ⟨changed, applied, rfl⟩ := change_single attended.only stepped
      split at applied
      case h_1 =>
        obtain ⟨cancelled, _⟩ := guarded_eq_some.mp applied
        rw [attended.cancelled] at cancelled
        cases cancelled
      case h_2 => cases applied
  | task index => exact attended.taskStep stepped
  | syncNow mode =>
      cases stepped
      exact ⟨scheduler, attended.enabled, attended.cancelled, attended.only, here⟩
  | disable => exact absurd rfl steady
  | enable =>
      simp only [scheduling, Plugin.enable, attended.enabled, if_true] at stepped
      cases stepped

theorem attended_initial : Plugin.Attended {} {} where
  enabled := rfl
  cancelled := rfl
  only := rfl
  attended := ⟨.inl ⟨rfl, rfl⟩, fun _ member => (nomatch member), fun busy =>
    busy.elim (absurd rfl) (nomatch ·), fun heard => absurd rfl heard⟩

/-- The loop waits, and there is no task, no tick and no sender that could wake it. -/
structure Plugin.Quiescent (state : Plugin) (scheduler : Scheduler) : Prop where
  loop : state.schedulers[0]? = some scheduler
  selects : scheduler.Selects
  tasks : state.tasks = []
  tick : scheduler.tick = false
  senders : state.senders = []

/-- The timer will wake the loop, nothing is queued, and every mode that was accepted was part of
the mode of a task. -/
structure Scheduler.Remembers (scheduler : Scheduler) : Prop where
  armed : scheduler.armed = true
  empty : scheduler.onDemandMode = .unknown
  served : ∀ mode ∈ scheduler.accepted, ∃ run ∈ scheduler.launched, mode.Within run

theorem Plugin.Attended.remembers (attended : state.Attended scheduler)
    {found : Scheduler} (quiescent : state.Quiescent found) : found.Remembers := by
  obtain ⟨rfl, _⟩ := attended.single quiescent.loop
  have here := attended.attended
  rw [quiescent.tasks] at here
  obtain ⟨context, selecting⟩ := quiescent.selects
  have waits : found.loop ≠ .woken ∧ found.loop ≠ .starting := by
    rw [selecting]
    exact ⟨(nomatch ·), (nomatch ·)⟩
  obtain ⟨armed, empty⟩ : found.armed = true ∧ found.onDemandMode = .unknown := by
    rcases here.watched with set | woken | starting | ⟨_, member, _⟩ | ⟨_, _, member, _⟩
    · exact set
    · exact absurd woken waits.1
    · exact absurd starting waits.2
    · cases member
    · cases member
  refine ⟨armed, empty, fun mode member => ?_⟩
  rcases here.covered mode member with queued | ran
  · have some := (here.answered (List.ne_nil_of_mem member)).resolve_right
      fun others => others.elim waits.1 waits.2
    obtain ⟨run, launched⟩ := List.exists_mem_of_ne_nil _ some
    exact ⟨run, launched, within_of_unknown (empty ▸ queued) run⟩
  · exact ran

/-- In every run in which the plugin stays enabled and a loop that finds the flag set leaves its
request to a task that has yet to look, a scheduler that has come to rest has its timer armed and
no request left over. -/
theorem scheduler_never_stalls (events : List EdgeEvent) (state : Plugin) (scheduler : Scheduler)
    (steady : .disable ∉ events) (timely : scheduling.Respects Timely {} events)
    (ran : scheduling.run {} events = some state) (quiescent : state.Quiescent scheduler) :
    scheduler.Remembers := by
  have both : scheduling.Respects (fun state event => Timely state event ∧ event ≠ .disable) {}
      events := timely.and fun event member _ => ne_of_mem_of_not_mem member steady
  obtain ⟨only, attended⟩ := Machine.invariant_of_run attended_step ⟨{}, attended_initial⟩ both ran
  exact attended.remembers quiescent

instance decidableTimely (state : Plugin) : (event : EdgeEvent) → Decidable (Timely state event)
  | .load loop => inferInstanceAs (Decidable (∀ scheduler ∈ state.schedulers[loop]?,
      scheduler.running = true → ∃ task ∈ state.tasks, task.phase.beforeCheck = true))
  | .enter _ | .fire _ | .tick _ | .accept _ _ | .acceptQueued _ _ | .start _ | .quit _ | .task _
  | .syncNow _ | .disable | .enable => .isTrue trivial

def queuedRequest : List EdgeEvent :=
  carefulRun ++ [.enter 0, .task 0, .task 0, .task 0, .acceptQueued 0 0]

def timelyRun : List EdgeEvent :=
  queuedRequest ++ [.task 0, .load 0, .start 0, .enter 0, .task 0, .task 0, .task 0, .task 0,
    .task 0, .task 0]

theorem exists_quiescent (events : List EdgeEvent) (check : Scheduler → Bool)
    (passes : (scheduling.run {} events).any (fun state => decide (state.tasks = []) &&
      decide (state.senders = []) && state.schedulers[0]?.any fun scheduler =>
        decide scheduler.Selects && !scheduler.tick && check scheduler) = true) :
    ∃ state scheduler, scheduling.run {} events = some state ∧ state.Quiescent scheduler ∧
      check scheduler = true := by
  obtain ⟨state, ran, rests⟩ := scheduling.exists_final {} events _ passes
  simp only [Bool.and_eq_true, decide_eq_true_eq, Option.any_eq_true, Bool.not_eq_true'] at rests
  obtain ⟨⟨tasks, senders⟩, scheduler, here, ⟨selects, tick⟩, checked⟩ := rests
  exact ⟨state, scheduler, ran, ⟨here, selects, tasks, tick, senders⟩, checked⟩

theorem timelyRun_remembers :
    ∃ state scheduler, scheduling.run {} timelyRun = some state ∧ state.Quiescent scheduler ∧
      scheduler.accepted ≠ [] ∧ scheduler.Remembers := by
  obtain ⟨state, scheduler, ran, quiescent, heard⟩ := exists_quiescent timelyRun
    (fun scheduler => scheduler.accepted ≠ []) (by decide +kernel)
  exact ⟨state, scheduler, ran, quiescent, of_decide_eq_true heard,
    scheduler_never_stalls timelyRun state scheduler (by decide +kernel) (by decide +kernel) ran
      quiescent⟩

def forgetfulRun : List EdgeEvent := queuedRequest ++ [.load 0, .enter 0, .task 0]

/-- The request is queued, nothing runs, and the timer is off. -/
theorem forgetfulRun_stalls :
    ∃ state scheduler, scheduling.run {} forgetfulRun = some state ∧ state.Quiescent scheduler ∧
      scheduler.armed = false ∧ scheduler.onDemandMode = .diff ∧ ¬scheduler.Remembers := by
  obtain ⟨state, scheduler, ran, quiescent, left⟩ := exists_quiescent forgetfulRun
    (fun scheduler => scheduler.armed = false ∧ scheduler.onDemandMode = .diff) (by decide +kernel)
  obtain ⟨disarmed, queued⟩ := of_decide_eq_true left
  refine ⟨state, scheduler, ran, quiescent, disarmed, queued, fun remembers => ?_⟩
  exact absurd (remembers.armed.symm.trans disarmed) (by decide)

end Attention

end Eamerald.Edge
