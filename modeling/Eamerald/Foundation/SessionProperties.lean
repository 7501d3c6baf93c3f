import Eamerald.Foundation.Sessions

/-! What holds of sessions that do not disturb each other. As long as nobody else
commits, a session has the effect of its program in one go, so of several programs
that each expect a version and replace it, at most one succeeds. A writer's lock
keeps all sessions apart. -/

set_option autoImplicit false

namespace Eamerald.Foundation

section Programs

variable {Op : Type → Type} {ε σ α V : Type} {session : Session Op ε σ α}

/-- A program that succeeds only on the expected version, and then leaves another. -/
structure ReplacesVersion (handler : Handler Op ε σ) (version : σ → Option V) (expected : V)
    (program : Program Op ε α) : Prop where
  checks : ∀ {state after value found}, program.run handler state = (.ok value, after) →
    version state = some found → found = expected
  replaces : ∀ {state after value}, program.run handler state = (.ok value, after) →
    version state = some expected → ∃ new, new ≠ expected ∧ version after = some new

theorem ReplacesVersion.of_checked {β : Type} {handler : Handler Op ε σ}
    {version : σ → Option V} {expected : V} {check : Except ε β} {next : β → Program Op ε α}
    (replaces : ∀ value, check = .ok value → ReplacesVersion handler version expected (next value)) :
    ReplacesVersion handler version expected (Program.done check >>= next) := by
  cases check with
  | ok value => exact replaces value rfl
  | error error =>
      constructor
      · intro state after value found ran
        cases ran
      · intro state after value ran
        cases ran

def Session.isRunning : Session Op ε σ α → Bool
  | .running _ _ _ => true
  | _ => false

def Session.succeeded : Session Op ε σ α → Bool
  | .ended (.ok _) => true
  | _ => false

def Session.pending : Session Op ε σ α → Option (Program Op ε α)
  | .waiting program => some program
  | .running program _ _ => some program
  | _ => none

/-- What is left of the program, on top of the writes so far, does what the program does
in one go. -/
def Session.Tracks (handler : Handler Op ε σ) (state : σ) : Session Op ε σ α → Prop
  | .running program rest writes => rest.run handler (writes state) = program.run handler state
  | _ => True

def Session.Untouched : Session Op ε σ α → Prop
  | .running program rest writes => rest = program ∧ writes = id
  | _ => True

theorem Session.Untouched.tracks (untouched : session.Untouched)
    (handler : Handler Op ε σ) (state : σ) : session.Tracks handler state := by
  cases session with
  | running program rest writes =>
      obtain ⟨rfl, rfl⟩ := untouched
      rfl
  | _ => exact trivial

theorem Session.untouched_of_not_running (idle : session.isRunning = false) : session.Untouched := by
  cases session with
  | running => cases idle
  | _ => exact trivial

end Programs

namespace Sessions

variable {Op : Type → Type} {ε σ α ρ V : Type} {handler : Handler Op ε σ}
  {isolation : Isolation Op ρ} {sessions next : Sessions Op ε σ α ρ} {me : Nat}
  {changed : Sessions Op ε σ α ρ} {locked : Sessions Op ε σ α ρ} {session : Session Op ε σ α}

section Moves

theorem session_put (session : Session Op ε σ α) (other : Nat) : (sessions.put me session).session other =
      if other = me then session else sessions.session other :=
  Function.update_apply sessions.session me session other

variable [DecidableEq ρ]

theorem acquire_frame {needed : Option (Lock ρ)} (acquired : sessions.acquire me needed = some locked) :
    locked.state = sessions.state ∧ locked.session = sessions.session := by
  cases needed with
  | none =>
      cases acquired
      exact ⟨rfl, rfl⟩
  | some lock =>
      simp only [acquire] at acquired
      split at acquired
      · cases acquired
        exact ⟨rfl, rfl⟩
      · cases acquired

variable (handler isolation) in
inductive Move (sessions : Sessions Op ε σ α ρ) (me : Nat) : Sessions Op ε σ α ρ → Prop where
  | begin {program : Program Op ε α} {locked : Sessions Op ε σ α ρ}
      (waiting : sessions.session me = .waiting program)
      (acquired : sessions.acquire me isolation.begins = some locked) :
      Move sessions me (locked.put me (.running program program id))
  | operation {program : Program Op ε α} {β : Type} {op : Op β}
      {resume : Except ε β → Program Op ε α} {writes : σ → σ} {locked : Sessions Op ε σ α ρ}
      (running : sessions.session me = .running program (.call op resume) writes)
      (acquired : sessions.acquire me ((isolation.locks op).map .row) = some locked) :
      Move sessions me (locked.put me
        (.running program (resume (handler.exec op (writes locked.state)).1)
          fun state => (handler.exec op (writes state)).2))
  | commit {program : Program Op ε α} {value : α} {writes : σ → σ}
      (running : sessions.session me = .running program (.done (.ok value)) writes) :
      Move sessions me (({ sessions with state := writes sessions.state }.release me).put me
        (.ended (.ok value)))
  | rollback {program : Program Op ε α} {error : ε} {writes : σ → σ}
      (running : sessions.session me = .running program (.done (.error error)) writes) :
      Move sessions me ((sessions.release me).put me (.ended (.error error)))

theorem move_of_step (stepped : (machine handler isolation).step sessions me = some next) :
    Move handler isolation sessions me next := by
  simp only [machine, step] at stepped
  split at stepped
  · cases stepped
  · rename_i program waiting
    obtain ⟨locked, acquired, same⟩ := Option.bind_eq_some_iff.mp stepped
    cases same
    exact .begin waiting acquired
  · rename_i program β op resume writes running
    obtain ⟨locked, acquired, same⟩ := Option.bind_eq_some_iff.mp stepped
    cases same
    exact .operation running acquired
  · rename_i program outcome writes running
    cases stepped
    cases outcome with
    | ok value => exact .commit running
    | error error => exact .rollback running
  · cases stepped

end Moves

section Contests

/-- A session commits only while all others have done nothing yet, or have ended. -/
def Undisturbing (sessions : Sessions Op ε σ α ρ) (me : Nat) : Prop :=
  ∀ program value writes, sessions.session me = .running program (.done (.ok value)) writes →
    ∀ other, other ≠ me → (sessions.session other).Untouched

theorem session_put_of_ne (session : Session Op ε σ α) {other : Nat} (different : other ≠ me) :
    (sessions.put me session).session other = sessions.session other := by
  rw [session_put, if_neg different]

theorem forall_put (property : Nat → Session Op ε σ α → Prop) (own : property me session)
    (others : ∀ other, other ≠ me → property other (sessions.session other)) :
    ∀ other, property other ((sessions.put me session).session other) := by
  intro other
  by_cases same : other = me
  · rw [session_put, if_pos same, same]
    exact own
  · rw [session_put_of_ne session same]
    exact others other same

variable {version : σ → Option V} {expected : V}

variable (handler version expected) in
/-- Of programs that expect the same version, none has succeeded yet, or one has and the
version is another. -/
structure Contest (sessions : Sessions Op ε σ α ρ) : Prop where
  tracks : ∀ me, (sessions.session me).Tracks handler sessions.state
  replaces : ∀ me program, (sessions.session me).pending = some program →
    ReplacesVersion handler version expected program
  decided : (version sessions.state = some expected ∧
      ∀ me, (sessions.session me).succeeded = false) ∨
    ∃ winner new, new ≠ expected ∧ version sessions.state = some new ∧
      ∀ me, (sessions.session me).succeeded = true → me = winner

theorem Contest.unsuccessful (contest : Contest handler version expected sessions)
    (state : changed.state = sessions.state) (same : changed.session = sessions.session)
    (tracks : session.Tracks handler sessions.state) (replaces : ∀ program, session.pending = some program →
      ReplacesVersion handler version expected program) (unsuccessful : session.succeeded = false) :
    Contest handler version expected (changed.put me session) := by
  refine ⟨?_, ?_, ?_⟩
  · refine forall_put (fun _ session => session.Tracks handler changed.state) ?_ ?_
    · rw [state]
      exact tracks
    · intro other _
      rw [state, same]
      exact contest.tracks other
  · refine forall_put (fun _ session => ∀ program, session.pending = some program →
      ReplacesVersion handler version expected program) replaces ?_
    intro other _
    rw [same]
    exact contest.replaces other
  · change (version changed.state = some expected ∧ _) ∨ ∃ winner new, _ ∧ version changed.state = _ ∧ _
    rw [state]
    rcases contest.decided with ⟨untouched, none⟩ | ⟨winner, new, different, current, unique⟩
    · refine .inl ⟨untouched, forall_put (fun _ session => session.succeeded = false) unsuccessful ?_⟩
      intro other _
      rw [same]
      exact none other
    · refine .inr ⟨winner, new, different, current, ?_⟩
      refine forall_put (fun other session => session.succeeded = true → other = winner) ?_ ?_
      · intro succeeded
        rw [unsuccessful] at succeeded
        cases succeeded
      · intro other _
        rw [same]
        exact unique other

theorem Contest.commit {program : Program Op ε α} {value : α}
    {writes : σ → σ} (contest : Contest handler version expected sessions)
    (undisturbing : Undisturbing sessions me)
    (running : sessions.session me = .running program (.done (.ok value)) writes)
    (state : changed.state = writes sessions.state) (same : changed.session = sessions.session) :
    Contest handler version expected (changed.put me (.ended (.ok value))) := by
  have tracked := contest.tracks me
  rw [running] at tracked
  have ran : program.run handler sessions.state = (.ok value, writes sessions.state) := tracked.symm
  have replaces := contest.replaces me program (by rw [running]; rfl)
  rcases contest.decided with ⟨current, none⟩ | ⟨winner, found, different, current, _⟩
  · obtain ⟨new, different, replaced⟩ := replaces.replaces ran current
    refine ⟨?_, ?_, .inr ⟨me, new, different, ?_, ?_⟩⟩
    · refine forall_put (fun _ session => session.Tracks handler changed.state) trivial ?_
      intro other apart
      rw [same]
      exact (undisturbing program value writes running other apart).tracks handler changed.state
    · refine forall_put (fun _ session => ∀ program, session.pending = some program →
        ReplacesVersion handler version expected program) (fun _ found => by cases found) ?_
      intro other _
      rw [same]
      exact contest.replaces other
    · change version changed.state = _
      rw [state]
      exact replaced
    · refine forall_put (fun other session => session.succeeded = true → other = me)
        (fun _ => rfl) ?_
      intro other _ succeeded
      rw [same, none other] at succeeded
      cases succeeded
  · exact absurd (replaces.checks ran current) different

theorem contest_start {state : σ} {programs : Nat → Option (Program Op ε α)}
    (current : version state = some expected) (replaces : ∀ me program, programs me = some program →
      ReplacesVersion handler version expected program) :
    Contest handler version expected (start state programs : Sessions Op ε σ α ρ) := by
  refine ⟨?_, ?_, .inl ⟨current, ?_⟩⟩
  · intro me
    simp only [start]
    split <;> exact trivial
  · intro me program pending
    simp only [start] at pending
    split at pending
    · cases pending
    · rename_i found
      cases pending
      exact replaces me program found
  · intro me
    simp only [start]
    split <;> rfl

variable [DecidableEq ρ]

theorem Contest.move (contest : Contest handler version expected sessions)
    (undisturbing : Undisturbing sessions me) (move : Move handler isolation sessions me next) :
    Contest handler version expected next := by
  cases move with
  | begin waiting acquired =>
      obtain ⟨state, same⟩ := acquire_frame acquired
      refine contest.unsuccessful state same rfl ?_ rfl
      intro program found
      refine contest.replaces me program ?_
      rw [waiting]
      exact found
  | operation running acquired =>
      obtain ⟨state, same⟩ := acquire_frame acquired
      have tracked := contest.tracks me
      rw [running] at tracked
      refine contest.unsuccessful state same ?_ ?_ rfl
      · rw [state]
        exact tracked
      · intro program found
        refine contest.replaces me program ?_
        rw [running]
        exact found
  | commit running => exact contest.commit undisturbing running rfl rfl
  | rollback running =>
      exact contest.unsuccessful rfl rfl trivial (fun _ found => by cases found) rfl

variable (handler isolation) in
/-- At most one session succeeds, in every schedule whose moves meet the condition. -/
def AtMostOneSucceeds (condition : Sessions Op ε σ α ρ → Nat → Prop)
    (sessions : Sessions Op ε σ α ρ) : Prop :=
  ∀ schedule final, (machine handler isolation).Respects condition sessions schedule →
    (machine handler isolation).run sessions schedule = some final →
      ∀ left right, (final.session left).succeeded = true →
        (final.session right).succeeded = true → left = right

theorem Contest.atMostOne (contest : Contest handler version expected sessions) :
    AtMostOneSucceeds handler isolation Undisturbing sessions := by
  intro schedule final undisturbing ran left right first second
  have ended : Contest handler version expected final :=
    Machine.invariant_of_run (fun _ _ _ contest undisturbing stepped =>
      contest.move undisturbing (move_of_step stepped)) contest undisturbing ran
  rcases ended.decided with ⟨_, none⟩ | ⟨winner, _, _, _, unique⟩
  · rw [none left] at first
    cases first
  · rw [unique left first, unique right second]

end Contests

section Exclusive

/-- A session moves while no other is running. -/
def Alone (sessions : Sessions Op ε σ α ρ) (me : Nat) : Prop :=
  ∀ other, other ≠ me → (sessions.session other).isRunning = false

theorem Alone.undisturbing (alone : Alone sessions me) : Undisturbing sessions me :=
  fun _ _ _ _ other apart => Session.untouched_of_not_running (alone other apart)

/-- Whoever runs has the writer's lock. -/
def Guarded (sessions : Sessions Op ε σ α ρ) : Prop :=
  ∀ me, (sessions.session me).isRunning = true → sessions.owner .writer = some me

theorem Guarded.alone (guarded : Guarded sessions)
    (mine : sessions.owner .writer = none ∨ sessions.owner .writer = some me) : Alone sessions me := by
  intro other apart
  by_contra runs
  have owned := guarded other (by simpa using runs)
  rcases mine with free | mine
  · cases free.symm.trans owned
  · cases mine.symm.trans owned
    exact apart rfl

theorem guarded_start (state : σ) (programs : Nat → Option (Program Op ε α)) :
    Guarded (start state programs : Sessions Op ε σ α ρ) := by
  intro me runs
  simp only [start] at runs
  split at runs <;> cases runs

theorem guarded_put (alone : Alone sessions me) (same : changed.session = sessions.session)
    (own : session.isRunning = true → changed.owner .writer = some me) : Guarded (changed.put me session) := by
  refine forall_put (fun other session => session.isRunning = true →
    changed.owner .writer = some other) own ?_
  intro other apart runs
  rw [same, alone other apart] at runs
  cases runs

variable [DecidableEq ρ]

theorem acquire_writer (acquired : sessions.acquire me (some .writer) = some locked) :
    (sessions.owner .writer = none ∨ sessions.owner .writer = some me) ∧ locked.owner .writer = some me := by
  simp only [acquire] at acquired
  split at acquired
  · rename_i free
    cases acquired
    exact ⟨free, by simp⟩
  · cases acquired

theorem acquire_row {row : Option ρ} (acquired : sessions.acquire me (row.map .row) = some locked) :
    locked.owner .writer = sessions.owner .writer := by
  cases row with
  | none =>
      cases acquired
      rfl
  | some key =>
      simp only [Option.map_some, acquire] at acquired
      split at acquired
      · cases acquired
        simp
      · cases acquired

theorem Guarded.move (exclusive : isolation.begins = some .writer) (guarded : Guarded sessions)
    (move : Move handler isolation sessions me next) : Alone sessions me ∧ Guarded next := by
  cases move with
  | begin waiting acquired =>
      rw [exclusive] at acquired
      obtain ⟨mine, owned⟩ := acquire_writer acquired
      have alone := guarded.alone mine
      exact ⟨alone, guarded_put alone (acquire_frame acquired).2 fun _ => owned⟩
  | operation running acquired =>
      have owned := guarded me (by rw [running]; rfl)
      have alone := guarded.alone (.inr owned)
      refine ⟨alone, guarded_put alone (acquire_frame acquired).2 fun _ => ?_⟩
      rw [acquire_row acquired]
      exact owned
  | commit running | rollback running =>
      have alone := guarded.alone (.inr (guarded me (by rw [running]; rfl)))
      exact ⟨alone, guarded_put alone rfl fun runs => by cases runs⟩

theorem Guarded.undisturbing (exclusive : isolation.begins = some .writer)
    (guarded : Guarded sessions) (schedule : List Nat) :
    (machine handler isolation).Respects Undisturbing sessions schedule := by
  induction schedule generalizing sessions with
  | nil => exact trivial
  | cons me rest ih =>
      intro next stepped
      obtain ⟨alone, guardedLater⟩ := guarded.move exclusive (move_of_step stepped)
      exact ⟨alone.undisturbing, ih guardedLater⟩

theorem Contest.atMostOne_of_exclusive {version : σ → Option V} {expected : V}
    (contest : Contest handler version expected sessions)
    (exclusive : isolation.begins = some .writer) (guarded : Guarded sessions) :
    AtMostOneSucceeds handler isolation (fun _ _ => True) sessions := by
  intro schedule final _
  exact contest.atMostOne schedule final (guarded.undisturbing exclusive schedule)

end Exclusive

end Sessions

end Eamerald.Foundation
