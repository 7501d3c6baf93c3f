import Eamerald.Foundation.Runs

/-! Processes that wait for each other through one-shot signals. Every process has a list
of processes it depends on; it receives one signal from each of them in order, begins, and
then sends one signal of its own, to whichever dependent takes it. -/

set_option autoImplicit false

namespace Eamerald.Foundation

/-- Waiting for the signals that remain, begun, offering the own signal, or done. -/
inductive Phase (α : Type) where
  | waiting (remaining : List α)
  | begun
  | offering
  | taken
deriving DecidableEq, Repr

inductive HandshakeEvent (α : Type) where
  | receive (process : α)
  | start (process : α)
  | offer (process : α)
deriving DecidableEq, Repr

structure Dependencies (α : Type) where
  processes : Finset α
  dependsOn : α → List α

namespace Phase

variable {α : Type}

def Begun : Phase α → Prop
  | .waiting _ => False
  | _ => True

def remaining : Phase α → List α
  | .waiting awaited => awaited
  | _ => []

def weight : Phase α → Nat
  | .waiting awaited => awaited.length + 3
  | .begun => 2
  | .offering => 1
  | .taken => 0

theorem remaining_of_begun {phase : Phase α} (begun : phase.Begun) : phase.remaining = [] := by
  cases phase with
  | waiting awaited => exact False.elim begun
  | begun => rfl
  | offering => rfl
  | taken => rfl

end Phase

section Machine

variable {α : Type} [DecidableEq α] (graph : Dependencies α)

def receive (state : α → Phase α) (process : α) : Option (α → Phase α) :=
  match state process with
  | .waiting (dependency :: remaining) =>
      if process ∈ graph.processes ∧ state dependency = .offering then
        some (Function.update (Function.update state dependency .taken) process (.waiting remaining))
      else none
  | _ => none

def advance (state : α → Phase α) (process : α) (before after : Phase α) : Option (α → Phase α) :=
  if process ∈ graph.processes ∧ state process = before then
    some (Function.update state process after)
  else none

def handshake : Machine (α → Phase α) (HandshakeEvent α) where
  step state
    | .receive process => receive graph state process
    | .start process => advance graph state process (.waiting []) .begun
    | .offer process => advance graph state process .begun .offering

def Dependencies.initial : α → Phase α := fun process => .waiting (graph.dependsOn process)

variable {graph} {state next : α → Phase α}

theorem advance_eq_some {process : α} {before after : Phase α} :
    advance graph state process before after = some next ↔
      (process ∈ graph.processes ∧ state process = before) ∧ Function.update state process after = next := by
  unfold advance
  split
  case isTrue able => simp [able]
  case isFalse unable => simp [unable]

theorem receive_eq_some {process : α} : receive graph state process = some next ↔
      ∃ dependency remaining, state process = .waiting (dependency :: remaining) ∧
        process ∈ graph.processes ∧ state dependency = .offering ∧
        next = Function.update (Function.update state dependency .taken) process (.waiting remaining) := by
  unfold receive
  cases phase : state process with
  | waiting awaited =>
      cases awaited with
      | nil => simp
      | cons dependency remaining =>
          by_cases able : process ∈ graph.processes ∧ state dependency = .offering
          · simp [able, eq_comm]
          · simp only [able, if_false]
            refine iff_of_false (nomatch ·) ?_
            rintro ⟨other, later, same, inside, offers, _⟩
            cases same
            exact able ⟨inside, offers⟩
  | begun => simp
  | offering => simp
  | taken => simp

/-- What a step can do: it takes a signal, or lets a process begin, or lets it offer its own. -/
theorem handshake_step {event : HandshakeEvent α} (stepped : (handshake graph).step state event = some next) :
    (∃ process dependency remaining, process ∈ graph.processes ∧
        state process = .waiting (dependency :: remaining) ∧ state dependency = .offering ∧
        next = Function.update (Function.update state dependency .taken) process (.waiting remaining)) ∨
      (∃ process, process ∈ graph.processes ∧ state process = .waiting [] ∧
        next = Function.update state process .begun) ∨
      ∃ process, process ∈ graph.processes ∧ state process = .begun ∧
        next = Function.update state process .offering := by
  cases event with
  | receive process =>
      obtain ⟨dependency, remaining, waits, inside, offers, rfl⟩ := receive_eq_some.mp stepped
      exact .inl ⟨process, dependency, remaining, inside, waits, offers, rfl⟩
  | start process =>
      obtain ⟨⟨inside, waits⟩, rfl⟩ := advance_eq_some.mp stepped
      exact .inr (.inl ⟨process, inside, waits, rfl⟩)
  | offer process =>
      obtain ⟨⟨inside, started⟩, rfl⟩ := advance_eq_some.mp stepped
      exact .inr (.inr ⟨process, inside, started, rfl⟩)

end Machine

section Accounting

variable {α : Type} (graph : Dependencies α) (state : α → Phase α)

/-- The process has had the signal of one it depends on. -/
def Received (process dependency : α) : Prop :=
  dependency ∈ graph.dependsOn process ∧ dependency ∉ (state process).remaining

/-- A signal that was taken was taken by one process, which depends on its sender. -/
structure Accounted : Prop where
  suffix : ∀ process, (state process).remaining <:+ graph.dependsOn process
  taken : ∀ process dependency, Received graph state process dependency → state dependency = .taken
  unique : ∀ process other dependency, Received graph state process dependency →
    Received graph state other dependency → process = other
  taker : ∀ dependency, state dependency = .taken →
    ∃ process ∈ graph.processes, Received graph state process dependency

variable {graph state}

theorem accounted_initial : Accounted graph graph.initial where
  suffix process := List.suffix_refl _
  taken process dependency received := absurd received.1 received.2
  unique process other dependency received _ := absurd received.1 received.2
  taker dependency taken := by cases taken

theorem Accounted.ordered (accounted : Accounted graph state) {process dependency : α}
    (begun : (state process).Begun) (depends : dependency ∈ graph.dependsOn process) :
    (state dependency).Begun := by
  have taken := accounted.taken process dependency
    ⟨depends, by rw [Phase.remaining_of_begun begun]; exact List.not_mem_nil⟩
  rw [taken]
  trivial

variable [DecidableEq α]

theorem Accounted.advance (accounted : Accounted graph state) {process : α} {after : Phase α}
    (idle : (state process).remaining = []) (idle' : after.remaining = [])
    (untaken : state process ≠ .taken) (untaken' : after ≠ .taken) :
    Accounted graph (Function.update state process after) := by
  have kept (other : α) :
      (Function.update state process after other).remaining = (state other).remaining := by
    by_cases same : other = process
    · rw [same, Function.update_self, idle, idle']
    · rw [Function.update_of_ne same]
  have taken (other : α) :
      Function.update state process after other = .taken ↔ state other = .taken := by
    by_cases same : other = process
    · rw [same, Function.update_self]
      exact iff_of_false untaken' untaken
    · rw [Function.update_of_ne same]
  have received (one other : α) :
      Received graph (Function.update state process after) one other ↔
        Received graph state one other := by
    rw [Received, Received, kept]
  refine ⟨fun other => ?_, fun one other => ?_, fun one other dependency => ?_, fun other => ?_⟩
  · rw [kept]
    exact accounted.suffix other
  · rw [received, taken]
    exact accounted.taken one other
  · rw [received, received]
    exact accounted.unique one other dependency
  · simp only [taken, received]
    exact accounted.taker other

theorem Accounted.receive (accounted : Accounted graph state) {process dependency : α}
    {remaining : List α} (nodup : (graph.dependsOn process).Nodup) (inside : process ∈ graph.processes)
    (waits : state process = .waiting (dependency :: remaining)) (offers : state dependency = .offering) :
    Accounted graph
      (Function.update (Function.update state dependency .taken) process (.waiting remaining)) := by
  have apart : dependency ≠ process := by
    rintro rfl
    rw [waits] at offers
    cases offers
  have suffix : dependency :: remaining <:+ graph.dependsOn process := by
    have held := accounted.suffix process
    rwa [waits] at held
  have once : dependency ∉ remaining := (List.nodup_cons.mp (nodup.sublist suffix.sublist)).1
  -- after the step the process has had the dependency's signal, and nothing else changes
  have received (one other : α) :
      Received graph (Function.update (Function.update state dependency .taken) process
        (.waiting remaining)) one other ↔
        Received graph state one other ∨ (one = process ∧ other = dependency) := by
    by_cases same : one = process
    · subst same
      simp only [Received, Function.update_self, waits, Phase.remaining, List.mem_cons, not_or,
        true_and]
      constructor
      · rintro ⟨depends, past⟩
        by_cases here : other = dependency
        · exact .inr here
        · exact .inl ⟨depends, here, past⟩
      · rintro (⟨depends, _, past⟩ | rfl)
        · exact ⟨depends, past⟩
        · exact ⟨suffix.subset List.mem_cons_self, once⟩
    · have kept : (Function.update state dependency Phase.taken one).remaining =
          (state one).remaining := by
        by_cases sender : one = dependency
        · rw [sender, Function.update_self, offers]
          rfl
        · rw [Function.update_of_ne sender]
      simp only [Received, Function.update_of_ne same, kept, same, false_and, or_false]
  have taken (other : α) :
      Function.update (Function.update state dependency .taken) process (.waiting remaining) other =
        .taken ↔ state other = .taken ∨ other = dependency := by
    by_cases same : other = process
    · subst same
      simp [waits, apart.symm]
    · rw [Function.update_of_ne same]
      by_cases sender : other = dependency
      · simp [sender]
      · simp [sender]
  have fresh (one : α) : ¬Received graph state one dependency := by
    intro had
    have gone := accounted.taken one dependency had
    rw [offers] at gone
    cases gone
  refine ⟨fun other => ?_, fun one other => ?_, fun one two other => ?_, fun other => ?_⟩
  · by_cases same : other = process
    · subst same
      rw [Function.update_self]
      exact (List.suffix_cons dependency remaining).trans suffix
    · rw [Function.update_of_ne same]
      by_cases sender : other = dependency
      · subst sender
        rw [Function.update_self]
        exact List.nil_suffix
      · rw [Function.update_of_ne sender]
        exact accounted.suffix other
  · rw [received, taken]
    rintro (had | ⟨_, rfl⟩)
    · exact .inl (accounted.taken one other had)
    · exact .inr rfl
  · rw [received, received]
    rintro (had | ⟨first, here⟩) (hadToo | ⟨second, there⟩)
    · exact accounted.unique one two other had hadToo
    · exact absurd (there ▸ had) (fresh one)
    · exact absurd (here ▸ hadToo) (fresh two)
    · exact first.trans second.symm
  · rw [taken]
    rintro (gone | rfl)
    · obtain ⟨taker, member, had⟩ := accounted.taker other gone
      exact ⟨taker, member, (received taker other).mpr (.inl had)⟩
    · exact ⟨process, inside, (received process other).mpr (.inr ⟨rfl, rfl⟩)⟩

theorem Accounted.step (nodup : ∀ process, (graph.dependsOn process).Nodup)
    (event : HandshakeEvent α) (next : α → Phase α) (accounted : Accounted graph state)
    (stepped : (handshake graph).step state event = some next) : Accounted graph next := by
  rcases handshake_step stepped with ⟨process, dependency, remaining, inside, waits, offers, rfl⟩ |
    ⟨process, _, waits, rfl⟩ | ⟨process, _, started, rfl⟩
  · exact accounted.receive (nodup process) inside waits offers
  · exact accounted.advance (by rw [waits]; rfl) rfl (by rw [waits]; exact (nomatch ·))
      (nomatch ·)
  · exact accounted.advance (by rw [started]; rfl) rfl (by rw [started]; exact (nomatch ·))
      (nomatch ·)

theorem accounted_of_run (nodup : ∀ process, (graph.dependsOn process).Nodup)
    {events : List (HandshakeEvent α)} {final : α → Phase α}
    (ran : (handshake graph).run graph.initial events = some final) : Accounted graph final :=
  Machine.invariant_of_steps (Accounted graph)
    (fun _ event next accounted stepped => accounted.step nodup event next stepped)
    accounted_initial ran

end Accounting

section Liveness

variable {α : Type} (graph : Dependencies α) {process : α}

/-- Every process depends on processes only, on each of them once, and never on itself through
others. -/
structure Dependencies.Acyclic : Prop where
  closed : ∀ process ∈ graph.processes, ∀ dependency ∈ graph.dependsOn process,
    dependency ∈ graph.processes
  nodup : ∀ process, (graph.dependsOn process).Nodup
  acyclic : ∀ process, ¬Relation.TransGen (fun one other => other ∈ graph.dependsOn one)
    process process

/-- No process is depended on by two. -/
def Dependencies.Private : Prop :=
  ∀ process ∈ graph.processes, ∀ other ∈ graph.processes, ∀ dependency,
    dependency ∈ graph.dependsOn process → dependency ∈ graph.dependsOn other → process = other

variable {graph} {state : α → Phase α}

/-- Some process that has not begun depends only on processes that have. -/
theorem Dependencies.Acyclic.exists_first (acyclic : graph.Acyclic)
    (inside : process ∈ graph.processes) (unbegun : ¬(state process).Begun) :
    ∃ first ∈ graph.processes, ¬(state first).Begun ∧
      ∀ dependency ∈ graph.dependsOn first, (state dependency).Begun := by
  let below : α → α → Prop := fun one other =>
    Relation.TransGen (fun one other => other ∈ graph.dependsOn one) other one
  have order : IsStrictOrder α below :=
    { irrefl := acyclic.acyclic, trans := fun _ _ _ first second => second.trans first }
  have founded : (graph.processes : Set α).WellFoundedOn below :=
    graph.processes.finite_toSet.wellFoundedOn
  by_contra none
  refine unbegun (founded.induction (P := fun process => (state process).Begun) inside ?_)
  intro later member earlier
  by_contra waits
  refine none ⟨later, member, waits, fun dependency depends => ?_⟩
  exact earlier dependency (acyclic.closed later member dependency depends) (.single depends)

theorem Accounted.not_both_begun (accounted : Accounted graph state) {other dependency : α}
    (apart : process ≠ other) (depends : dependency ∈ graph.dependsOn process)
    (dependsToo : dependency ∈ graph.dependsOn other) : ¬((state process).Begun ∧ (state other).Begun) := by
  rintro ⟨one, two⟩
  refine apart (accounted.unique process other dependency ⟨depends, ?_⟩ ⟨dependsToo, ?_⟩)
  · rw [Phase.remaining_of_begun one]
    exact List.not_mem_nil
  · rw [Phase.remaining_of_begun two]
    exact List.not_mem_nil

variable [DecidableEq α]

/-- A process whose dependencies have begun can go on, or one of them can. -/
theorem Accounted.progress (accounted : Accounted graph state) (acyclic : graph.Acyclic)
    (alone : graph.Private) (inside : process ∈ graph.processes) (unbegun : ¬(state process).Begun) :
    ∃ event next, (handshake graph).step state event = some next := by
  obtain ⟨first, member, waits, ready⟩ := acyclic.exists_first inside unbegun
  cases phase : state first with
  | waiting remaining =>
      cases remaining with
      | nil => exact ⟨.start first, _, advance_eq_some.mpr ⟨⟨member, phase⟩, rfl⟩⟩
      | cons dependency remaining =>
          have depends : dependency ∈ graph.dependsOn first :=
            (accounted.suffix first).subset (by rw [phase]; exact List.mem_cons_self)
          have sender := acyclic.closed first member dependency depends
          have started := ready dependency depends
          cases other : state dependency with
          | waiting awaited =>
              rw [other] at started
              exact False.elim started
          | begun => exact ⟨.offer dependency, _, advance_eq_some.mpr ⟨⟨sender, other⟩, rfl⟩⟩
          | offering =>
              exact ⟨.receive first, _,
                receive_eq_some.mpr ⟨dependency, remaining, phase, member, other, rfl⟩⟩
          | taken =>
              -- the signal can only have gone to this process, which still waits for it
              obtain ⟨taker, among, had⟩ := accounted.taker dependency other
              cases alone taker among first member dependency had.1 depends
              exact absurd (by rw [phase]; exact List.mem_cons_self) had.2
  | begun =>
      rw [phase] at waits
      exact absurd trivial waits
  | offering =>
      rw [phase] at waits
      exact absurd trivial waits
  | taken =>
      rw [phase] at waits
      exact absurd trivial waits

def handshakeRank (graph : Dependencies α) (state : α → Phase α) : Nat :=
  ∑ process ∈ graph.processes, (state process).weight

theorem handshakeRank_update (inside : process ∈ graph.processes) {after : Phase α}
    (lighter : after.weight < (state process).weight) :
    handshakeRank graph (Function.update state process after) < handshakeRank graph state := by
  refine Finset.sum_lt_sum (fun other _ => ?_) ⟨process, inside, ?_⟩
  · by_cases same : other = process
    · rw [same, Function.update_self]
      exact lighter.le
    · rw [Function.update_of_ne same]
  · rwa [Function.update_self]

theorem handshakeRank_step (state : α → Phase α) (event : HandshakeEvent α) (next : α → Phase α)
    (stepped : (handshake graph).step state event = some next) :
    handshakeRank graph next < handshakeRank graph state := by
  rcases handshake_step stepped with ⟨process, dependency, remaining, inside, waits, offers, rfl⟩ |
    ⟨process, inside, waits, rfl⟩ | ⟨process, inside, started, rfl⟩
  · have apart : process ≠ dependency := by
      rintro rfl
      rw [waits] at offers
      cases offers
    have lighter : (Phase.waiting remaining).weight <
        (Function.update state dependency .taken process).weight := by
      rw [Function.update_of_ne apart, waits]
      simp [Phase.weight]
    refine (handshakeRank_update inside lighter).trans_le ?_
    refine Finset.sum_le_sum fun other _ => ?_
    by_cases sender : other = dependency
    · rw [sender, Function.update_self]
      exact Nat.zero_le _
    · rw [Function.update_of_ne sender]
  · exact handshakeRank_update inside (by rw [waits]; exact Nat.lt_succ_self 2)
  · exact handshakeRank_update inside (by rw [started]; exact Nat.lt_succ_self 1)

/-- In a graph without cycles, no run gets stuck before every process has begun exactly when no
process is depended on by two. -/
theorem handshake_live_iff (acyclic : graph.Acyclic) :
    (∀ events final, (handshake graph).run graph.initial events = some final →
      ∀ process ∈ graph.processes, ¬(final process).Begun →
        ∃ event next, (handshake graph).step final event = some next) ↔ graph.Private := by
  constructor
  · intro live process inside other insideToo dependency depends dependsToo
    by_contra apart
    obtain ⟨events, final, ran, stuck⟩ :=
      Machine.exists_stuck handshakeRank_step graph.initial
    have begun (one : α) (member : one ∈ graph.processes) : (final one).Begun := by
      by_contra unbegun
      obtain ⟨event, next, stepped⟩ := live events final ran one member unbegun
      rw [stuck event] at stepped
      cases stepped
    exact (accounted_of_run acyclic.nodup ran).not_both_begun apart depends dependsToo
      ⟨begun process inside, begun other insideToo⟩
  · intro alone events final ran process inside unbegun
    exact (accounted_of_run acyclic.nodup ran).progress acyclic alone inside unbegun

end Liveness

end Eamerald.Foundation
