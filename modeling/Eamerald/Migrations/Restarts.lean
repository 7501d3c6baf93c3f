import Eamerald.Foundation.Runs
import Eamerald.Migrations.Preservation

/-! The check of the schema version and the migration as a process that can be stopped
between any two of its transactions and file operations, and is then started again. The
contents survive unless it is stopped after a migration has begun to delete and before
that migration has written its version, or while a new file is being made. -/

set_option autoImplicit false

namespace Eamerald.Migrations

open Foundation Store
open Bolt (Key Bucket metadataKey bodyKey modelKey objKeyOf subKeyOf objectPlace maxKeySize)
open Directory (Library Simple.library)

/-- The numbers count committed transactions. A backup is truncated before it is written. -/
inductive Process where
  | down
  | checking
  | creating (done : Nat)
  | deciding
  | backingUp (current : Version) (truncated : Bool)
  | stepping (current : Version) (done : Nat)
  | returned (outcome : Except Err Unit)

structure World (ω : Type) where
  disk : Disk ω
  process : Process := .down

inductive Event where
  | start
  | advance
  | stop
deriving DecidableEq, Repr

def errDirectorySchemaVersionHigher : Err :=
  .aserto ⟨"E20054", .failedPrecondition, 417,
    "directory schema version is higher than supported by engine"⟩

/-- The panic at a version that is missing. -/
def errNilVersion : Err := .engine "runtime error: invalid memory address or nil pointer dereference"

section Steps

variable {ω μ : Type} [Wire ω μ] (library : Library μ) (texts : Texts ω)

/-- The decision of `CheckSchemaVersion`; an older file is left to `Migrate`. -/
def checkSchemaVersion (disk : Disk ω) : World ω :=
  match disk.file with
  | none => ⟨{ disk with file := some .empty }, .creating 0⟩
  | some file =>
      match getVersion texts file with
      | none => ⟨disk, .returned (.error errNilVersion)⟩
      | some version =>
          if version = reqVersion then ⟨disk, .returned (.ok ())⟩
          else if version < reqVersion then ⟨disk, .deciding⟩
          else ⟨disk, .returned (.error errDirectorySchemaVersionHigher)⟩

/-- `Migrate` between two passes. -/
def decideNext (disk : Disk ω) : World ω :=
  match getVersion texts disk.opened with
  | none => ⟨disk, .returned (.ok ())⟩
  | some version =>
      if version = reqVersion then ⟨disk, .returned (.ok ())⟩ else ⟨disk, .backingUp version false⟩

def commitNext (stages : Except Err (List (Stage Err (File ω)))) (done : Nat)
    (going : Nat → Process) (finished : Process) (disk : Disk ω) : World ω :=
  match stages with
  | .error error => ⟨disk, .returned (.error error)⟩
  | .ok stages =>
      match stages[done]? with
      | none => ⟨disk, finished⟩
      | some stage =>
          match stage disk.opened with
          | .error error => ⟨disk, .returned (.error error)⟩
          | .ok file => ⟨{ disk with file := some file },
              if done + 1 < stages.length then going (done + 1) else finished⟩

def advance (world : World ω) : Option (World ω) :=
  match world.process with
  | .down | .returned _ => none
  | .checking => some (checkSchemaVersion texts world.disk)
  | .creating done => some (commitNext (stagesTo library texts reqVersion none) done .creating
      (.returned (.ok ())) world.disk)
  | .deciding => some (decideNext texts world.disk)
  | .backingUp current false => some ⟨{ world.disk with
      backups := Function.update world.disk.backups current none }, .backingUp current true⟩
  | .backingUp current true => some ⟨world.disk.backUp current, .stepping current 0⟩
  | .stepping current done => some (commitNext
      (stagesTo library texts (current + 1) (world.disk.backups current)) done
      (.stepping current) .deciding world.disk)

def restarts : Machine (World ω) Event where
  step world
    | .advance => advance library texts world
    | .stop =>
        match world.process with
        | .down => none
        | _ => some ⟨world.disk, .down⟩
    | .start =>
        match world.process with
        | .down => some ⟨world.disk, .checking⟩
        | _ => none

end Steps

/-- A migration has begun to delete and has not written its version, or a new file has not
got one. -/
def Process.exposed : Process → Bool
  | .creating _ => true
  | .stepping 6 done => 0 < done
  | .stepping 8 done => 1 < done
  | _ => false

def Process.resumption : Process → List Event
  | .down => [.start]
  | _ => []

section Soundness

variable {ω μ : Type} [Wire ω μ] (library : Library μ) (texts : Texts ω) (contents : Contents)

/-- Some file on disk still has everything. -/
def Contained (disk : Disk ω) : Prop :=
  contents = .empty ∨ ∃ file version, (disk.file = some file ∨ ∃ old, disk.backups old = some file) ∧
    WellFormed library texts version contents file

/-- Not stopped any more, the process succeeds with the same contents. -/
def Completes (world : World ω) : Prop :=
  ∃ steps final, (restarts library texts).run world
      (world.process.resumption ++ List.replicate steps .advance) = some final ∧
    final.process = .returned (.ok ()) ∧
    ∃ file, final.disk.file = some file ∧ WellFormed library texts reqVersion contents file

/-- The file from which a migration succeeds, or none. -/
def Migratable (disk : Disk ω) : Prop :=
  disk.file = none ∧ contents = .empty ∨
    ∃ file version, disk.file = some file ∧ 4 ≤ version ∧ version ≤ 9 ∧
      WellFormed library texts version contents file ∧ (migrate library texts disk).1 = .ok ()

/-- A pass can start from the file. -/
structure Passable (version : Nat) (file : File ω) : Prop where
  formed : WellFormed library texts version contents file
  low : 6 ≤ version
  high : version ≤ 8
  isSet : contents.manifest.isSome

def Ready (file : File ω) : Prop :=
  WellFormed library texts reqVersion contents file ∨
    ∃ version, Passable library texts contents version file

def Settled (disk : Disk ω) : Prop :=
  disk.file = none ∧ contents = .empty ∨
    ∃ file, disk.file = some file ∧ Ready library texts contents file

/-- Some of the transactions are done, on the file as it was at the beginning. -/
structure Underway (version : Version) (backup : Option (File ω)) (start : File ω) (done : Nat)
    (disk : Disk ω) (stages : List (Stage Err (File ω))) (reached : File ω) : Prop where
  planned : stagesTo library texts version backup = .ok stages
  short : done < stages.length
  stored : disk.file = some reached
  ran : runStages (stages.take done) start = (.ok (), reached)

def Sound (world : World ω) : Prop :=
  match world.process with
  | .down | .checking => Settled library texts contents world.disk
  | .creating done => contents = .empty ∧ ∃ stages reached,
      Underway library texts reqVersion none .empty done world.disk stages reached
  | .deciding => ∃ file, world.disk.file = some file ∧ Ready library texts contents file
  | .backingUp current _ => ∃ file, world.disk.file = some file ∧
      Passable library texts contents current file
  | .stepping current done => ∃ backup stages reached,
      world.disk.backups current = some backup ∧ Passable library texts contents current backup ∧
      Underway library texts (current + 1) (some backup) backup done world.disk stages reached
  | .returned outcome => outcome = .ok () ∧ ∃ file, world.disk.file = some file ∧
      WellFormed library texts reqVersion contents file

end Soundness

section Advancing

variable {ω μ : Type} [Wire ω μ] {library : Library μ} {texts : Texts ω} {contents : Contents}
  {disk : Disk ω} {file : File ω} {stages : List (Stage Err (File ω))} {world : World ω}
  {reached : File ω} {done : Nat} {next : World ω} {version : Nat}

theorem Ready.of_passable (passable : Passable library texts contents version file) :
    Ready library texts contents file :=
  .inr ⟨version, passable⟩

theorem empty_coherent : Contents.empty.Coherent where
  mirrored relation := by simp [Contents.empty]
  objects_fit place object found := by cases found
  relations_fit place relation found := by cases found

theorem creating_formed (library : Library μ) (texts : Texts ω) :
    ∃ stages final, stagesTo library texts reqVersion none = .ok stages ∧
      runStages stages (.empty : File ω) = (.ok (), final) ∧
      WellFormed library texts reqVersion .empty final := by
  let last : File ω := ((((((File.empty.create .system).delete .manifestV1).create
    .manifestV2).create .objects).create .relationsObj).create .relationsSub)
  have fresh {path : Path} (different : path ≠ .manifestV1) : last.bucket path = some ∅ := by
    cases path <;> simp [last, File.create, File.delete, File.empty] at different ⊢
  have system : last.bucket .system = some ∅ := fresh (by decide)
  obtain ⟨final, written, versioned, kept⟩ := setVersion_ok texts system 9
  have keeps {M : Type} (codec : Codec ω M) (key : M → Key) {path : Path} (other : path ≠ .system)
      (different : path ≠ .manifestV1) :
      Keeps codec key (fun _ => none) (final.bucket path) := by
    rw [kept path other, fresh different]
    exact ⟨∅, rfl, decodes_empty codec key, rowAt_empty codec⟩
  refine ⟨_, final, rfl, ?_, versioned, keeps _ _ (by decide) (by decide),
    keeps _ _ (by decide) (by decide), keeps _ _ (by decide) (by decide), ?_, empty_coherent⟩
  · exact runStages_cons_ok written
  · intro bucket found key _
    rw [show manifestPath reqVersion = .manifestV2 from rfl, kept _ (by decide),
      fresh (by decide)] at found
    cases found
    simp

theorem Underway.commit {version : Version} {backup : Option (File ω)} {start final : File ω}
    (underway : Underway library texts version backup start done disk stages reached)
    (whole : runStages stages start = (.ok (), final)) (going : Nat → Process) (finished : Process) :
    ∃ next, commitNext (stagesTo library texts version backup) done going finished disk =
        ⟨{ disk with file := some next },
          if done + 1 < stages.length then going (done + 1) else finished⟩ ∧
      (done + 1 < stages.length → Underway library texts version backup start (done + 1)
        { disk with file := some next } stages next) ∧
      (¬done + 1 < stages.length → next = final) := by
  obtain ⟨stage, next, found, committed, ran⟩ := exists_committed whole underway.short underway.ran
  refine ⟨next, ?_, fun short => ⟨underway.planned, short, rfl, ran⟩, fun ended => ?_⟩
  · unfold commitNext
    rw [underway.planned]
    dsimp only
    rw [found, opened_of_file underway.stored]
    dsimp only
    rw [committed]
  · rw [List.take_of_length_le (Nat.not_lt.mp ended), whole] at ran
    cases ran
    rfl

def versionOf (texts : Texts ω) (disk : Disk ω) : Nat := (getVersion texts disk.opened).getD 0

def remaining (texts : Texts ω) (world : World ω) : Nat :=
  match world.process with
  | .down | .returned _ => 0
  | .checking => 400
  | .creating done => 20 - done
  | .deciding => 20 * (9 - versionOf texts world.disk) + 19
  | .backingUp current truncated => 20 * (9 - current) + if truncated then 17 else 18
  | .stepping current done => 20 * (9 - current) + 16 - done

theorem versionOf_formed (stored : disk.file = some file)
    (formed : WellFormed library texts version contents file) : versionOf texts disk = version := by
  rw [versionOf, opened_of_file stored, formed.versioned]
  rfl

theorem length_stagesTo {backup : Option (File ω)} (low : 7 ≤ version) (high : version ≤ 9)
    (planned : stagesTo library texts version backup = .ok stages) :
    0 < stages.length ∧ stages.length ≤ 14 := by
  have cases : version = 7 ∨ version = 8 ∨ version = 9 := by omega
  rcases cases with rfl | rfl | rfl <;>
  · cases planned
    simp [Mig007.fnMap, reload, Mig009.fnMap]

theorem advance_checking (settled : Settled library texts contents disk) :
    Sound library texts contents (checkSchemaVersion texts disk) ∧
      remaining texts (checkSchemaVersion texts disk) < 400 := by
  rcases settled with ⟨missing, empty⟩ | ⟨file, stored, formed | ⟨version, passable⟩⟩
  · obtain ⟨stages, final, planned, _⟩ := creating_formed library texts
    have checked : checkSchemaVersion texts disk =
        ⟨{ disk with file := some .empty }, .creating 0⟩ := by rw [checkSchemaVersion, missing]
    rw [checked]
    have length := length_stagesTo (by decide) (by decide) planned
    exact ⟨⟨empty, stages, .empty, planned, length.1, rfl, rfl⟩, by simp [remaining]⟩
  · have checked : checkSchemaVersion texts disk = ⟨disk, .returned (.ok ())⟩ := by
      rw [checkSchemaVersion, stored]
      dsimp only
      rw [formed.versioned]
      exact if_pos rfl
    rw [checked]
    exact ⟨⟨rfl, file, stored, formed⟩, by simp [remaining]⟩
  · have older : version < 9 := Nat.lt_succ_of_le passable.high
    have checked : checkSchemaVersion texts disk = ⟨disk, .deciding⟩ := by
      rw [checkSchemaVersion, stored]
      dsimp only
      rw [passable.formed.versioned]
      exact (if_neg older.ne).trans (if_pos older)
    rw [checked]
    refine ⟨⟨file, stored, .of_passable passable⟩, ?_⟩
    simp only [remaining, versionOf_formed stored passable.formed]
    omega

theorem advance_deciding (stored : disk.file = some file) (ready : Ready library texts contents file) :
    Sound library texts contents (decideNext texts disk) ∧
      remaining texts (decideNext texts disk) < 20 * (9 - versionOf texts disk) + 19 := by
  rcases ready with formed | ⟨version, passable⟩
  · have decided : decideNext texts disk = ⟨disk, .returned (.ok ())⟩ := by
      rw [decideNext, opened_of_file stored, formed.versioned]
      exact if_pos rfl
    rw [decided]
    refine ⟨⟨rfl, file, stored, formed⟩, ?_⟩
    simp only [remaining]
    omega
  · have older : version < 9 := Nat.lt_succ_of_le passable.high
    have decided : decideNext texts disk = ⟨disk, .backingUp version false⟩ := by
      rw [decideNext, opened_of_file stored, passable.formed.versioned]
      exact if_neg older.ne
    rw [decided, versionOf_formed stored passable.formed]
    exact ⟨⟨file, stored, passable⟩, Nat.lt_succ_self _⟩

theorem advance_creating (underway : Underway library texts reqVersion none .empty done disk stages reached) :
    Sound library texts .empty (commitNext (stagesTo library texts reqVersion none) done .creating
        (.returned (.ok ())) disk) ∧
      remaining texts (commitNext (stagesTo library texts reqVersion none) done .creating
        (.returned (.ok ())) disk) < 20 - done := by
  obtain ⟨_, final, planned, whole, formed⟩ := creating_formed library texts
  cases planned.symm.trans underway.planned
  obtain ⟨next, committed, going, ended⟩ :=
    underway.commit whole .creating (.returned (.ok ()))
  have length := length_stagesTo (by decide) (by decide) planned
  have short := underway.short
  rw [committed]
  by_cases more : done + 1 < stages.length
  · rw [if_pos more]
    refine ⟨⟨rfl, stages, next, going more⟩, ?_⟩
    simp only [remaining]
    omega
  · rw [if_neg more]
    refine ⟨⟨rfl, next, rfl, ended more ▸ formed⟩, ?_⟩
    simp only [remaining]
    omega

theorem advance_stepping {current : Nat} {backup : File ω} (kept : disk.backups current = some backup)
    (passable : Passable library texts contents current backup)
    (underway : Underway library texts (current + 1) (some backup) backup done disk stages reached) :
    Sound library texts contents (commitNext
        (stagesTo library texts (current + 1) (some backup)) done (.stepping current) .deciding disk) ∧
      remaining texts (commitNext (stagesTo library texts (current + 1) (some backup)) done
        (.stepping current) .deciding disk) < 20 * (9 - current) + 16 - done := by
  have low := passable.low
  have high := passable.high
  obtain ⟨_, final, planned, whole, formed⟩ := pass_keeps low high passable.formed passable.isSet
  cases planned.symm.trans underway.planned
  obtain ⟨next, committed, going, ended⟩ := underway.commit whole (.stepping current) .deciding
  have length := length_stagesTo (by omega) (by omega) planned
  have short := underway.short
  rw [committed]
  by_cases more : done + 1 < stages.length
  · rw [if_pos more]
    refine ⟨⟨backup, stages, next, kept, passable, going more⟩, ?_⟩
    simp only [remaining]
    omega
  · rw [if_neg more]
    have finished : next = final := ended more
    rw [finished]
    have there : ({ disk with file := some final } : Disk ω).file = some final := rfl
    have versioned := versionOf_formed there formed
    constructor
    · refine ⟨final, rfl, ?_⟩
      by_cases last : current + 1 = 9
      · rw [last] at formed
        exact .inl formed
      · exact .of_passable ⟨formed, by omega, by omega, passable.isSet⟩
    · simp only [remaining, versioned]
      omega

theorem sound_advance (sound : Sound library texts contents world)
    (advanced : advance library texts world = some next) :
    Sound library texts contents next ∧ remaining texts next < remaining texts world := by
  obtain ⟨disk, process⟩ := world
  cases process with
  | down | returned outcome => cases advanced
  | checking =>
      cases advanced
      exact advance_checking sound
  | creating done =>
      obtain ⟨rfl, stages, reached, underway⟩ := sound
      cases advanced
      exact advance_creating underway
  | deciding =>
      obtain ⟨file, stored, ready⟩ := sound
      cases advanced
      exact advance_deciding stored ready
  | backingUp current truncated =>
      obtain ⟨file, stored, passable⟩ := sound
      cases truncated with
      | false =>
          cases advanced
          exact ⟨⟨file, stored, passable⟩, Nat.lt_succ_self _⟩
      | true =>
          cases advanced
          have low := passable.low
          have high := passable.high
          obtain ⟨stages, _, planned, _⟩ := pass_keeps low high passable.formed passable.isSet
          have length := length_stagesTo (by omega) (by omega) planned
          refine ⟨⟨file, stages, file, ?_, passable, planned, length.1, ?_, rfl⟩, ?_⟩
          · simp [Disk.backUp, opened_of_file stored]
          · simp [Disk.backUp, opened_of_file stored]
          · simp only [remaining, if_true]
            omega
  | stepping current done =>
      obtain ⟨backup, stages, reached, kept, passable, underway⟩ := sound
      rw [advance] at advanced
      dsimp only at advanced
      rw [kept] at advanced
      cases advanced
      exact advance_stepping kept passable underway

theorem passable_of_unexposed {current : Nat} {backup : File ω}
    (passable : Passable library texts contents current backup)
    (underway : Underway library texts (current + 1) (some backup) backup done disk stages reached)
    (harmless : (Process.stepping current done).exposed = false) :
    Passable library texts contents current reached := by
  obtain ⟨planned, short, _, ran⟩ := underway
  have low := passable.low
  have high := passable.high
  refine ⟨?_, low, high, passable.isSet⟩
  have cases : current = 6 ∨ current = 7 ∨ current = 8 := by omega
  rcases cases with rfl | rfl | rfl
  · -- nothing is committed yet
    have none : done = 0 := by simpa [Process.exposed] using harmless
    subst none
    cases ran
    exact passable.formed
  · -- every transaction but the last keeps the file well formed
    cases planned
    have before : done ≤ ((reload library).map (· (some backup))).length := by
      simp only [List.length_append, List.length_singleton] at short
      omega
    rw [List.take_append_of_le_length before] at ran
    have commits : ∀ stage ∈ ((reload library).map (· (some backup))).take done, ∀ rw,
        WellFormed library texts 7 contents rw →
          ∃ next, stage rw = .ok next ∧ WellFormed library texts 7 contents next := by
      intro stage member rw held
      obtain ⟨step, listed, rfl⟩ := List.mem_map.mp (List.mem_of_mem_take member)
      exact reload_step (by decide) (by decide) passable.formed passable.isSet listed held
    obtain ⟨final, again, formed⟩ := exists_runStages commits passable.formed
    cases again.symm.trans ran
    exact formed
  · -- at most the system bucket is ensured
    cases planned
    have few : done = 0 ∨ done = 1 := by
      have : done ≤ 1 := by simpa [Process.exposed] using harmless
      omega
    rcases few with rfl | rfl
    · cases ran
      exact passable.formed
    · cases ran
      exact passable.formed.create .system

theorem settled_of_unexposed {process : Process} (sound : Sound library texts contents ⟨disk, process⟩)
    (harmless : process.exposed = false) : Settled library texts contents disk := by
  cases process with
  | down | checking => exact sound
  | creating done => cases harmless
  | deciding => exact .inr sound
  | backingUp current truncated =>
      obtain ⟨file, stored, passable⟩ := sound
      exact .inr ⟨file, stored, .of_passable passable⟩
  | stepping current done =>
      obtain ⟨backup, stages, reached, _, passable, underway⟩ := sound
      exact .inr ⟨reached, underway.stored,
        .of_passable (passable_of_unexposed passable underway harmless)⟩
  | returned outcome =>
      obtain ⟨_, file, stored, formed⟩ := sound
      exact .inr ⟨file, stored, .inl formed⟩

/-- The process is stopped only where nothing is exposed. -/
def StopsHarmlessly (world : World ω) (event : Event) : Prop :=
  event = .stop → world.process.exposed = false

instance (world : World ω) (event : Event) : Decidable (StopsHarmlessly world event) :=
  inferInstanceAs (Decidable (_ → _))

theorem sound_step {event : Event}
    (sound : Sound library texts contents world) (harmless : StopsHarmlessly world event)
    (stepped : (restarts library texts).step world event = some next) : Sound library texts contents next := by
  obtain ⟨disk, process⟩ := world
  cases event with
  | advance => exact (sound_advance sound stepped).1
  | start =>
      cases process with
      | down =>
          cases stepped
          exact sound
      | _ => cases stepped
  | stop =>
      have settled := settled_of_unexposed sound (harmless rfl)
      cases process with
      | down => cases stepped
      | _ =>
          cases stepped
          exact settled

theorem contained_of_ready (stored : disk.file = some file)
    (ready : Ready library texts contents file) : Contained library texts contents disk := by
  rcases ready with formed | ⟨version, passable⟩
  · exact .inr ⟨file, reqVersion, .inl stored, formed⟩
  · exact .inr ⟨file, version, .inl stored, passable.formed⟩

theorem contained_of_sound {process : Process} (sound : Sound library texts contents ⟨disk, process⟩) :
    Contained library texts contents disk := by
  cases process with
  | down | checking =>
      rcases sound with ⟨_, empty⟩ | ⟨file, stored, ready⟩
      · exact .inl empty
      · exact contained_of_ready stored ready
  | creating done => exact .inl sound.1
  | deciding =>
      obtain ⟨file, stored, ready⟩ := sound
      exact contained_of_ready stored ready
  | backingUp current truncated =>
      obtain ⟨file, stored, passable⟩ := sound
      exact .inr ⟨file, current, .inl stored, passable.formed⟩
  | stepping current done =>
      obtain ⟨backup, _, _, kept, passable, _⟩ := sound
      exact .inr ⟨backup, current, .inr ⟨current, kept⟩, passable.formed⟩
  | returned outcome =>
      obtain ⟨_, file, stored, formed⟩ := sound
      exact .inr ⟨file, reqVersion, .inl stored, formed⟩

theorem resumption_commitNext (stages : Except Err (List (Stage Err (File ω)))) (done : Nat)
    {going : Nat → Process} {finished : Process} (goes : ∀ done, (going done).resumption = [])
    (finishes : finished.resumption = []) (disk : Disk ω) :
    (commitNext stages done going finished disk).process.resumption = [] := by
  unfold commitNext
  cases stages with
  | error error => rfl
  | ok stages =>
      dsimp only
      split
      · exact finishes
      · split
        · rfl
        · dsimp only
          split
          · exact goes _
          · exact finishes

theorem resumption_advance (advanced : advance library texts world = some next) :
    next.process.resumption = [] := by
  obtain ⟨disk, process⟩ := world
  cases process with
  | down | returned outcome => cases advanced
  | checking =>
      cases advanced
      unfold checkSchemaVersion
      repeat' split
      all_goals rfl
  | creating done =>
      cases advanced
      exact resumption_commitNext _ _ (fun _ => rfl) rfl _
  | deciding =>
      cases advanced
      unfold decideNext
      repeat' split
      all_goals rfl
  | backingUp current truncated =>
      cases truncated with
      | false | true =>
          cases advanced
          rfl
  | stepping current done =>
      cases advanced
      exact resumption_commitNext _ _ (fun _ => rfl) rfl _

theorem exists_end (sound : Sound library texts contents world) (running : world.process.resumption = []) :
    ∃ steps final, (restarts library texts).run world (List.replicate steps .advance) = some final ∧
      final.process = .returned (.ok ()) ∧
      ∃ file, final.disk.file = some file ∧ WellFormed library texts reqVersion contents file := by
  induction size : remaining texts world using Nat.strong_induction_on generalizing world with
  | _ size ih =>
      cases advanced : advance library texts world with
      | some next =>
          obtain ⟨kept, closer⟩ := sound_advance sound advanced
          obtain ⟨steps, final, ran, ended⟩ :=
            ih (remaining texts next) (size ▸ closer) kept (resumption_advance advanced) rfl
          exact ⟨steps + 1, final, Machine.run_cons.mpr ⟨next, advanced, ran⟩, ended⟩
      | none =>
          obtain ⟨disk, process⟩ := world
          cases process with
          | down => cases running
          | returned outcome =>
              obtain ⟨rfl, file, stored, formed⟩ := sound
              exact ⟨0, _, rfl, rfl, file, stored, formed⟩
          | backingUp current truncated => cases truncated <;> cases advanced
          | _ => cases advanced

theorem completes_of_sound (sound : Sound library texts contents world) :
    Completes library texts contents world := by
  obtain ⟨disk, process⟩ := world
  have started (running : process.resumption = []) :
      Completes library texts contents ⟨disk, process⟩ := by
    obtain ⟨steps, final, ran, ended⟩ := exists_end sound running
    refine ⟨steps, final, ?_, ended⟩
    dsimp only
    rw [running]
    exact ran
  cases process with
  | down =>
      have checking : Sound library texts contents ⟨disk, .checking⟩ := sound
      obtain ⟨steps, final, ran, ended⟩ := exists_end checking rfl
      exact ⟨steps, final, Machine.run_cons.mpr ⟨_, rfl, ran⟩, ended⟩
  | _ => exact started rfl

theorem sound_of_migratable (apart : texts.Apart) (migratable : Migratable library texts contents disk) :
    Sound library texts contents ⟨disk, .down⟩ := by
  rcases migratable with missing | ⟨file, version, stored, low, high, formed, migrates⟩
  · exact .inl missing
  · refine .inr ⟨file, stored, ?_⟩
    by_cases last : version = 9
    · rw [last] at formed
      exact .inl formed
    · have below : version ≤ 8 := Nat.lt_succ_iff.mp (Nat.lt_of_le_of_ne high last)
      obtain ⟨later, isSet⟩ := set_of_migrates apart low below stored formed migrates
      exact .of_passable ⟨formed, later, below, isSet⟩

theorem migration_restartable (apart : texts.Apart)
    (migratable : Migratable library texts contents disk) {events : List Event} {world : World ω}
    (harmless : (restarts library texts).Respects StopsHarmlessly ⟨disk, .down⟩ events)
    (ran : (restarts library texts).run ⟨disk, .down⟩ events = some world) :
    Contained library texts contents world.disk ∧ Completes library texts contents world := by
  have sound : Sound library texts contents world :=
    Machine.invariant_of_run (fun _ _ _ sound met stepped => sound_step sound met stepped)
      (sound_of_migratable apart migratable) harmless ran
  exact ⟨contained_of_sound sound, completes_of_sound sound⟩

end Advancing

section Samples

def lettersDisk : Disk (Value Directory.Simple.Model) where
  file := some (sampleFile 8 (some lettersManifest))

theorem lettersDisk_migratable :
    Migratable Simple.library plainTexts (sampleContents (some lettersManifest)) lettersDisk := by
  have formed := sampleFile_formed (show 8 < 9 by decide) (some lettersManifest)
  have stored : lettersDisk.file = some (sampleFile 8 (some lettersManifest)) := rfl
  refine .inr ⟨_, 8, stored, by decide, by decide, formed, ?_⟩
  obtain ⟨after, final, migrated, _⟩ := preserves_of_set (by decide) (by decide) stored formed rfl
  rw [migrated]

def stoppedAfter (steps : Nat) : List Event := .start :: List.replicate steps .advance ++ [.stop]

/-- Stopped in the migration to 0.0.9, before the old manifest is deleted. -/
theorem letters_restartable :
    ∃ world, (restarts Simple.library plainTexts).run ⟨lettersDisk, .down⟩ (stoppedAfter 5) =
        some world ∧
      Contained Simple.library plainTexts (sampleContents (some lettersManifest)) world.disk ∧
      Completes Simple.library plainTexts (sampleContents (some lettersManifest)) world := by
  obtain ⟨world, ran, _⟩ := Machine.exists_final (restarts Simple.library plainTexts)
    ⟨lettersDisk, .down⟩ (stoppedAfter 5) (fun _ => true) (by decide +kernel)
  exact ⟨world, ran,
    migration_restartable plainTexts_apart lettersDisk_migratable (by decide +kernel) ran⟩

/-- Neither place of the manifest has a body. -/
def manifestless (file : File (Value Directory.Simple.Model)) : Bool :=
  [Path.manifestV1, .manifestV2].all fun path =>
    ((file.bucket path).bind fun bucket => bucket[bodyKey]?).isNone

def failed : Process → Bool
  | .returned (.error _) => true
  | _ => false

theorem not_completes_of_failed {ω μ : Type} [Wire ω μ] {library : Library μ} {texts : Texts ω}
    {contents : Contents} {world : World ω} (ended : failed world.process = true) :
    ¬Completes library texts contents world := by
  obtain ⟨disk, process⟩ := world
  intro completes
  obtain ⟨steps, final, ran, succeeded, _⟩ := completes
  cases process with
  | returned outcome =>
      cases steps with
      | zero =>
          cases ran
          cases succeeded
          cases ended
      | succ steps =>
          obtain ⟨_, advanced, _⟩ := Machine.run_cons.mp ran
          cases advanced
  | _ => cases ended

/-- Stopped after the old manifest is deleted. The process that is started again writes its
backup over the only file that still has the manifest, and fails. -/
theorem letters_lost :
    ∃ world, (restarts Simple.library plainTexts).run ⟨lettersDisk, .down⟩
        (stoppedAfter 6 ++ .start :: List.replicate 8 .advance) = some world ∧
      ((world.disk.file.all manifestless && (List.range 10).all fun version =>
        (world.disk.backups version).all manifestless) && failed world.process) = true ∧
      ¬Completes Simple.library plainTexts (sampleContents (some lettersManifest)) world := by
  obtain ⟨world, ran, lost⟩ := Machine.exists_final (restarts Simple.library plainTexts)
    ⟨lettersDisk, .down⟩ (stoppedAfter 6 ++ .start :: List.replicate 8 .advance)
    (fun world => (world.disk.file.all manifestless && (List.range 10).all fun version =>
      (world.disk.backups version).all manifestless) && failed world.process) (by decide +kernel)
  exact ⟨world, ran, lost, not_completes_of_failed (Bool.and_eq_true_iff.mp lost).2⟩

end Samples

end Eamerald.Migrations
