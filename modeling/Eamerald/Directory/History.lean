import Eamerald.Directory.Stamping
import Eamerald.Foundation.Ledger

/-! The metadata of the rows against the history of the store. What a row says of its insertion
and its last change is what has happened to its identifier. -/

set_option autoImplicit false

namespace Eamerald.Directory

open Foundation Store

open Concurrency (RowKey)

variable {entry : Entry} {other : Entry}

section Contents

theorem Entry.Clear.of_ident (clear : entry.Clear) (same : entry.ident = other.ident) : other.Clear := by
  cases entry with
  | object message =>
      cases other with
      | object other =>
          have types : message.type = other.type := congrArg ObjectIdentifier.objectType (RowKey.object.inj same)
          exact (types ▸ clear : Bolt.PlainName other.type)
      | relation other => cases same
  | relation message =>
      cases other with
      | object other => cases same
      | relation other =>
          have idents : message.ident = other.ident := RowKey.relation.inj same
          exact (idents ▸ clear : Bolt.Storable other.ident)

variable {ω μ : Type} [Wire ω μ] {library : Library μ} {engine : Engine ω}

def Engine.placeOf (library : Library μ) (engine : Engine ω) :
    RowKey → engine.ObjectPlace ⊕ engine.RelationPlace
  | .object ident => .inl ((engine.layout library).objects.key ident)
  | .relation ident => .inr ((engine.layout library).relations.key ident)

theorem Engine.placeOf_ident (entry : Entry) :
    engine.placeOf library entry.ident = (engine.layout library).place entry := by
  cases entry <;> rfl

def Engine.row (library : Library μ) (engine : Engine ω) (state : engine.State) (ident : RowKey) :
    Option Entry :=
  ((engine.layout library).entry state (engine.placeOf library ident)).filter fun entry =>
    entry.ident = ident

theorem Engine.row_eq_some_iff {state : engine.State} {ident : RowKey} :
    engine.row library state ident = some entry ↔
      (engine.layout library).entry state (engine.placeOf library ident) = some entry ∧ entry.ident = ident := by
  simp [Engine.row, Option.filter_eq_some_iff]

theorem Engine.ident_eq_of_place (clear : entry.Clear) (otherClear : other.Clear)
    (same : (engine.layout library).place entry = (engine.layout library).place other) :
    entry.ident = other.ident := by
  cases entry with
  | object message =>
      cases other with
      | relation other => cases same
      | object other =>
          have keys := Sum.inl.inj same
          cases engine with
          | bolt =>
              obtain ⟨sameType, sameId⟩ := (append_cons_inj_left clear.1 otherClear.1).mp keys
              exact congrArg RowKey.object (ObjectIdentifier.ext sameType sameId)
          | postgres server => exact congrArg RowKey.object keys
  | relation message =>
      cases other with
      | object other => cases same
      | relation other =>
          have keys := Sum.inr.inj same
          cases engine with
          | bolt => exact congrArg RowKey.relation (Bolt.Storable.separate clear otherClear .byObject keys)
          | postgres server => exact congrArg RowKey.relation keys

end Contents

section Hashes

variable {μ : Type}

/-- The hash is that of the content, and tells the contents apart that are set for one
identifier. -/
structure HashLaw (library : Library μ) (rows : List Entry) : Prop where
  present : ∀ entry : Entry, entry.hash library ≠ []
  content : ∀ entry : Entry, entry.bare.hash library = entry.hash library
  collisionFree : ∀ entry ∈ rows, ∀ other ∈ rows, entry.ident = other.ident →
    entry.hash library = other.hash library → entry.bare = other.bare

variable {library : Library μ} {rows : List Entry}

theorem HashLaw.hash_eq (law : HashLaw library rows) (same : entry.bare = other.bare) :
    entry.hash library = other.hash library := by
  rw [← law.content entry, same, law.content other]

end Hashes

section Invariant

variable {ω μ : Type} [Wire ω μ] {library : Library μ} {engine : Engine ω} {rows : List Entry}

structure Tidy (library : Library μ) (engine : Engine ω) (rows : List Entry) (state : engine.State) : Prop where
  sound : (engine.layout library).sound state
  stored : ∀ {place entry}, (engine.layout library).entry state place = some entry →
    entry.Clear ∧ entry.etag = entry.hash library ∧ ∃ set ∈ rows, set.bare = entry.bare

variable {state after : engine.State}

/-- A set takes its row to be stored already exactly if the stored row has its content. -/
theorem Tidy.tagged_iff (law : HashLaw library rows) (tidy : Tidy library engine rows state)
    {old : Entry} (member : entry ∈ rows) (clear : entry.Clear)
    (found : (engine.layout library).entry state ((engine.layout library).place entry) = some old) :
    entry.Tagged library old ↔ old.bare = entry.bare := by
  obtain ⟨oldClear, tag, set, setMember, same⟩ := tidy.stored found
  have place := (engine.layout library).place_of_entry tidy.sound found
  have ident := Engine.ident_eq_of_place oldClear clear place
  constructor
  · rintro (hashes | ⟨untagged, _⟩)
    · rw [← same]
      refine law.collisionFree set setMember entry member ?_ ?_
      · exact (Entry.ident_eq_of_bare same).trans ident
      · rw [law.hash_eq same, ← tag, hashes]
    · exact absurd (tag.symm.trans untagged) (law.present old)
  · intro bare
    exact .inl (tag.trans (law.hash_eq bare))

theorem Tidy.of_removes (tidy : Tidy library engine rows state) (removes : engine.Removes library state after) :
    Tidy library engine rows after := by
  refine ⟨removes.1, fun {place entry} found => ?_⟩
  rcases removes.2 place with same | gone
  · exact tidy.stored (same.symm.trans found)
  · cases gone.symm.trans found

theorem stamps_of_removes (removes : engine.Removes library state after) (time : Option Timestamp)
    (ident : RowKey) : Stamps Entry.bare Entry.createdAt Entry.updatedAt time (engine.row library state ident)
      (engine.row library after ident) := by
  rcases removes.2 (engine.placeOf library ident) with same | gone
  · exact .inl (by rw [Engine.row, Engine.row, same])
  · exact .inr (.inl (by rw [Engine.row, gone, Option.filter_none]))

section Writing

variable {entry new : Entry} {old : Option Entry} {now : Timestamp}

theorem Tidy.of_written (law : HashLaw library rows) (tidy : Tidy library engine rows state)
    (member : entry ∈ rows) (clear : entry.Clear) (bare : new.bare = entry.bare)
    (tag : new.etag = entry.hash library) (sound : (engine.layout library).sound after)
    (changed : (engine.layout library).entry after = Function.update ((engine.layout library).entry state)
      ((engine.layout library).place entry) (some new)) : Tidy library engine rows after := by
  refine ⟨sound, fun {place stored} found => ?_⟩
  rw [changed, Function.update_apply] at found
  split at found
  · cases found
    refine ⟨clear.of_ident (Entry.ident_eq_of_bare bare).symm, ?_, entry, member, bare.symm⟩
    rw [tag, law.hash_eq bare]
  · exact tidy.stored found

theorem row_of_written (bare : new.bare = entry.bare)
    (changed : (engine.layout library).entry after = Function.update ((engine.layout library).entry state)
      ((engine.layout library).place entry) (some new)) : engine.row library after entry.ident = some new := by
  rw [Engine.row_eq_some_iff, Engine.placeOf_ident, changed, Function.update_self]
  exact ⟨rfl, Entry.ident_eq_of_bare bare⟩

theorem stamps_of_written (law : HashLaw library rows) (tidy : Tidy library engine rows state)
    (member : entry ∈ rows) (clear : entry.Clear)
    (found : (engine.layout library).entry state ((engine.layout library).place entry) = old)
    (untagged : ∀ stored ∈ old, ¬ entry.Tagged library stored) (bare : new.bare = entry.bare)
    (updated : new.updatedAt = some now) (created : new.createdAt = old.elim (some now) Entry.createdAt)
    (changed : (engine.layout library).entry after = Function.update ((engine.layout library).entry state)
      ((engine.layout library).place entry) (some new)) (ident : RowKey) :
    Stamps Entry.bare Entry.createdAt Entry.updatedAt (some now) (engine.row library state ident)
      (engine.row library after ident) := by
  by_cases same : ident = entry.ident
  · subst same
    refine .inr (.inr ⟨new, now, row_of_written bare changed, rfl, updated, ?_⟩)
    cases old with
    | none =>
        refine .inl ⟨?_, created⟩
        rw [Engine.row, Engine.placeOf_ident, found, Option.filter_none]
    | some old =>
        obtain ⟨oldClear, _⟩ := tidy.stored found
        have place := (engine.layout library).place_of_entry tidy.sound found
        refine .inr ⟨old, ?_, fun content => ?_, created⟩
        · rw [Engine.row_eq_some_iff, Engine.placeOf_ident]
          exact ⟨found, Engine.ident_eq_of_place oldClear clear place⟩
        · exact untagged old rfl ((tidy.tagged_iff law member clear found).mpr (content.trans bare))
  · -- Another identifier keeps its row, unless its place has been taken.
    by_cases taken : engine.placeOf library ident = (engine.layout library).place entry
    · refine .inr (.inl ?_)
      rw [Engine.row, changed, taken, Function.update_self, Option.filter_some, if_neg]
      rw [decide_eq_true_eq, Entry.ident_eq_of_bare bare]
      exact fun other => same other.symm
    · refine .inl ?_
      rw [Engine.row, Engine.row, changed, Function.update_of_ne taken]

end Writing

section Steps

variable (clear : ClearRows library) (law : HashLaw library rows) (tidy : Tidy library engine rows state)
  {step : Step μ} (free : step.BarFree)

include clear law tidy free

theorem Tidy.perform (single : step.Single) (known : ∀ entry ∈ step.sets, entry ∈ rows) :
    Tidy library engine rows (step.perform library engine.backend state).2 ∧
      ∀ ident, Stamps Entry.bare Entry.createdAt Entry.updatedAt step.time (engine.row library state ident)
        (engine.row library (step.perform library engine.backend state).2 ident) := by
  cases sets : step.sets with
  | none =>
      have removes := step.removes sets single tidy.sound
      exact ⟨tidy.of_removes removes, stamps_of_removes removes step.time⟩
  | some entry =>
      obtain ⟨now, timed, settles⟩ := Step.settles clear law.present tidy.sound sets free
      rw [timed]
      revert settles
      generalize step.perform library engine.backend state = ran
      rintro (⟨error, rfl⟩ | ⟨entryClear, stores⟩)
      · exact ⟨tidy, fun ident => .inl rfl⟩
      · cases stores with
        | refused error => exact ⟨tidy, fun ident => .inl rfl⟩
        | present found tagged => exact ⟨tidy, fun ident => .inl rfl⟩
        | written found untagged bare tag updated created kept changed =>
            have member := known entry sets
            exact ⟨tidy.of_written law member entryClear bare tag kept changed,
              stamps_of_written law tidy member entryClear found untagged bare updated created changed⟩

/-- A row that is there with its content is not touched by setting it again. -/
theorem Tidy.perform_again (sets : step.sets = some entry) (member : entry ∈ rows)
    (there : (engine.row library state entry.ident).map Entry.bare = some entry.bare) :
    (step.perform library engine.backend state).2 = state := by
  obtain ⟨stored, found, content⟩ := Option.map_eq_some_iff.mp there
  obtain ⟨found, _⟩ := Engine.row_eq_some_iff.mp found
  rw [Engine.placeOf_ident] at found
  obtain ⟨now, _, settles⟩ := Step.settles clear law.present tidy.sound sets free
  revert settles
  generalize step.perform library engine.backend state = ran
  rintro (⟨error, rfl⟩ | ⟨entryClear, stores⟩)
  · rfl
  · cases stores with
    | refused error => rfl
    | present _ tagged => rfl
    | written before untagged =>
        cases found.symm.trans before
        exact absurd ((tidy.tagged_iff law member entryClear found).mpr content) (untagged stored rfl)

theorem Tidy.perform_set (sets : step.sets = some entry) (member : entry ∈ rows)
    (succeeds : (step.perform library engine.backend state).1 = .ok ⟨⟩) :
    (engine.row library (step.perform library engine.backend state).2 entry.ident).map Entry.bare =
      some entry.bare := by
  obtain ⟨now, _, settles⟩ := Step.settles clear law.present tidy.sound sets free
  revert settles succeeds
  generalize step.perform library engine.backend state = ran
  rintro succeeds (⟨error, rfl⟩ | ⟨entryClear, stores⟩)
  · cases succeeds
  · cases stores with
    | refused error => cases succeeds
    | @present old _ found tagged =>
        have content := (tidy.tagged_iff law member entryClear found).mp tagged
        refine Option.map_eq_some_iff.mpr ⟨old, ?_, content⟩
        rw [Engine.row_eq_some_iff, Engine.placeOf_ident]
        exact ⟨found, Entry.ident_eq_of_bare content⟩
    | @written _ _ _ new _ _ bare _ _ _ _ changed =>
        exact Option.map_eq_some_iff.mpr ⟨new, row_of_written bare changed, bare⟩

end Steps

end Invariant

section Runs

variable {ω μ : Type} [Wire ω μ] (library : Library μ) (engine : Engine ω)
  {operations : List (Operation μ)}

def Engine.record : List (Step μ) → engine.State → List (Moment RowKey Entry Timestamp) →
    List (Moment RowKey Entry Timestamp)
  | [], _, past => past
  | step :: later, state, past =>
      let after := (step.perform library engine.backend state).2
      Engine.record later after (⟨step.time, engine.row library after⟩ :: past)

def Engine.history (steps : List (Step μ)) : List (Moment RowKey Entry Timestamp) :=
  engine.record library steps engine.empty [⟨none, engine.row library engine.empty⟩]

variable {library engine} {rows : List Entry}

theorem tidy_empty : Tidy library engine rows engine.empty := by
  refine ⟨engine.sound_empty, fun {place entry} found => ?_⟩
  cases (engine.entry_empty place).symm.trans found

def Step.Allowed (rows : List Entry) (step : Step μ) : Prop :=
  step.Single ∧ step.BarFree ∧ ∀ entry ∈ step.sets, entry ∈ rows

theorem tidy_runSteps (clear : ClearRows library) (law : HashLaw library rows) {steps : List (Step μ)}
    (allowed : ∀ step ∈ steps, step.Allowed rows) {state : engine.State}
    (tidy : Tidy library engine rows state) :
    Tidy library engine rows (runSteps library engine.backend steps state) := by
  induction steps generalizing state with
  | nil => exact tidy
  | cons step later ih =>
      obtain ⟨single, free, known⟩ := allowed step List.mem_cons_self
      exact ih (fun other member => allowed other (List.mem_cons_of_mem step member))
        (tidy.perform clear law free single known).1

theorem recorded_record (clear : ClearRows library) (law : HashLaw library rows) {steps : List (Step μ)}
    (allowed : ∀ step ∈ steps, step.Allowed rows) {state : engine.State}
    (tidy : Tidy library engine rows state) {time : Option Timestamp}
    {past : List (Moment RowKey Entry Timestamp)}
    (recorded : Recorded Entry.bare Entry.createdAt Entry.updatedAt (⟨time, engine.row library state⟩ :: past)) :
    ∃ last earlier, engine.record library steps state (⟨time, engine.row library state⟩ :: past) =
        ⟨last, engine.row library (runSteps library engine.backend steps state)⟩ :: earlier ∧
      Recorded Entry.bare Entry.createdAt Entry.updatedAt
        (⟨last, engine.row library (runSteps library engine.backend steps state)⟩ :: earlier) := by
  induction steps generalizing state time past with
  | nil => exact ⟨time, past, rfl, recorded⟩
  | cons step later ih =>
      obtain ⟨single, free, known⟩ := allowed step List.mem_cons_self
      obtain ⟨tidyAfter, stamps⟩ := tidy.perform clear law free single known
      exact ih (fun other member => allowed other (List.mem_cons_of_mem step member)) tidyAfter
        (.step recorded stamps)

/-- The relations are in both indexes, each under the keys of its identifier. -/
def Engine.Mirrored : (engine : Engine ω) → engine.State → Prop
  | .bolt, db => ∃ relations, Bolt.Mirrors (μ := μ) db relations
  | .postgres _, _ => True

def rowsSet (operations : List (Operation μ)) : List Entry :=
  (operations.flatMap Operation.steps).filterMap Step.sets

structure Consistent (library : Library μ) (engine : Engine ω) (operations : List (Operation μ)) : Prop where
  keyed : ∀ place entry, (engine.layout library).entry (engine.reached library operations) place = some entry →
    place = engine.placeOf library entry.ident
  mirrored : engine.Mirrored (μ := μ) (engine.reached library operations)
  tagged : ∀ place entry, (engine.layout library).entry (engine.reached library operations) place = some entry →
    entry.etag = entry.hash library
  truthful : ∀ place entry,
    (engine.layout library).entry (engine.reached library operations) place = some entry →
      Truthful Entry.bare Entry.createdAt Entry.updatedAt
        (engine.history library (operations.flatMap Operation.steps)) entry.ident entry
  again : ∀ before step later entry, operations.flatMap Operation.steps = before ++ step :: later →
    step.sets = some entry →
      (engine.row library (runSteps library engine.backend before engine.empty) entry.ident).map Entry.bare =
        some entry.bare →
      (step.perform library engine.backend (runSteps library engine.backend before engine.empty)).2 =
        runSteps library engine.backend before engine.empty
  kept : ∀ before step later entry, operations.flatMap Operation.steps = before ++ step :: later →
    step.sets = some entry →
      (step.perform library engine.backend (runSteps library engine.backend before engine.empty)).1 = .ok ⟨⟩ →
      (engine.row library (step.perform library engine.backend
        (runSteps library engine.backend before engine.empty)).2 entry.ident).map Entry.bare = some entry.bare

theorem allowed_steps (free : ∀ operation ∈ operations, operation.BarFree) :
    ∀ step ∈ operations.flatMap Operation.steps, step.Allowed (rowsSet operations) := by
  intro step member
  obtain ⟨operation, there, stepThere⟩ := List.mem_flatMap.mp member
  obtain ⟨single, stepFree⟩ := (free operation there).steps step stepThere
  exact ⟨single, stepFree, fun entry sets => List.mem_filterMap.mpr ⟨step, member, sets⟩⟩

theorem Engine.mirrored_reached (clear : ClearRows library)
    (free : ∀ operation ∈ operations, operation.BarFree) :
    engine.Mirrored (μ := μ) (engine.reached library operations) := by
  cases engine with
  | bolt =>
      obtain ⟨relations, mirrors, _⟩ := agree_runOperations clear.relations free (Bolt.agree_emptyDB (ω := ω))
      exact ⟨relations, mirrors⟩
  | postgres server => trivial

/-- After any operations whose ids contain no bar, every row lies under its key, is tagged with
the hash of its content, and carries the times of its insertion and its last change. Setting
equal content changes nothing, and a successful set leaves its content. -/
theorem metadata_consistent_with_history (clear : ClearRows library) (operations : List (Operation μ))
    (free : ∀ operation ∈ operations, operation.BarFree) (law : HashLaw library (rowsSet operations)) :
    Consistent library engine operations := by
  have allowed := allowed_steps free
  have tidy : Tidy library engine (rowsSet operations) (engine.reached library operations) := by
    rw [Engine.reached, runOperations_eq]
    exact tidy_runSteps clear law allowed tidy_empty
  have before {earlier later : List (Step μ)} {step : Step μ}
      (split : operations.flatMap Operation.steps = earlier ++ step :: later) :
      step.Allowed (rowsSet operations) ∧
        Tidy library engine (rowsSet operations) (runSteps library engine.backend earlier engine.empty) := by
    rw [split] at allowed
    refine ⟨allowed step (List.mem_append_right earlier List.mem_cons_self), ?_⟩
    exact tidy_runSteps clear law (fun other member => allowed other (List.mem_append_left _ member)) tidy_empty
  constructor
  · intro place entry found
    rw [Engine.placeOf_ident]
    exact ((engine.layout library).place_of_entry tidy.sound found).symm
  · exact Engine.mirrored_reached clear free
  · exact fun place entry found => (tidy.stored found).2.1
  · intro place entry found
    have here := (engine.layout library).place_of_entry tidy.sound found
    have row : engine.row library (engine.reached library operations) entry.ident = some entry := by
      rw [Engine.row_eq_some_iff, Engine.placeOf_ident, here]
      exact ⟨found, rfl⟩
    have start : Recorded Entry.bare Entry.createdAt Entry.updatedAt
        [(⟨none, engine.row library engine.empty⟩ : Moment RowKey Entry Timestamp)] := by
      refine .start fun ident => ?_
      change engine.row library engine.empty ident = none
      rw [Engine.row, engine.entry_empty, Option.filter_none]
    obtain ⟨last, earlier, recordedAs, recorded⟩ := recorded_record clear law allowed tidy_empty start
    rw [Engine.history, recordedAs]
    refine recorded.truthful ?_
    rw [← runOperations_eq]
    exact row
  · intro earlier step later entry split sets there
    obtain ⟨⟨_, stepFree, known⟩, tidyBefore⟩ := before split
    exact tidyBefore.perform_again clear law stepFree sets (known entry sets) there
  · intro earlier step later entry split sets succeeds
    obtain ⟨⟨_, stepFree, known⟩, tidyBefore⟩ := before split
    exact tidyBefore.perform_set clear law stepFree sets (known entry sets) succeeds

end Runs

section Sample

def Entry.Unstructured : Entry → Prop
  | .object message => message.properties = none
  | .relation _ => True

theorem simple_hashLaw {rows : List Entry} (unstructured : ∀ entry ∈ rows, entry.Unstructured) :
    HashLaw Simple.library rows where
  present := simple_hashed
  content entry := by cases entry <;> rfl
  collisionFree := by
    intro entry member other otherMember same hashes
    cases entry with
    | object message =>
        cases other with
        | relation other => cases same
        | object other =>
            have properties := (unstructured _ member).trans (unstructured _ otherMember).symm
            have names : message.displayName = other.displayName := List.append_cancel_right hashes
            obtain ⟨types, ids⟩ := ObjectIdentifier.mk.inj (RowKey.object.inj same)
            simp only [Entry.bare, types, ids, names, properties]
    | relation message =>
        cases other with
        | object other => cases same
        | relation other =>
            obtain ⟨h1, h2, h3, h4, h5, h6⟩ := RelationIdentifier.mk.inj (RowKey.relation.inj same)
            simp only [Entry.bare, h1, h2, h3, h4, h5, h6]

theorem simple_clearRows : ClearRows Simple.library := ⟨simple_plainObjects, simple_plainRelations⟩

def titled (title tag : String) : Object :=
  { document "d1" with displayName := title.toList, etag := tag.toList, createdAt := some ⟨99, 0⟩ }

def revisions : List (Operation Simple.Model) :=
  [.setObject Simple.viewersModel [] ⟨1, 0⟩ (titled "A" "A#"),
    .importStream [⟨Simple.viewersModel, ⟨2, 0⟩, .set, .object (some (titled "A" "x"))⟩,
      ⟨Simple.viewersModel, ⟨3, 0⟩, .set, .object (some (titled "B" "B#"))⟩,
      ⟨Simple.viewersModel, ⟨4, 0⟩, .set, .relation (some (Simple.viewer "d1" "u1"))⟩] .done,
    .deleteObject Simple.viewersModel [] ⟨5, 0⟩ ⟨"doc".toList, "d1".toList, false⟩,
    .subscriber [⟨Simple.viewersModel, ⟨6, 0⟩, .object (some (titled "A" "B#"))⟩,
      ⟨Simple.viewersModel, ⟨7, 0⟩, .object (some (titled "B" "A#"))⟩],
    .setObject Simple.viewersModel "B#".toList ⟨8, 0⟩ (titled "B" "B#")]

theorem revisions_consistent :
    Consistent Simple.library boltEngine revisions ∧
      (boltEngine.row Simple.library (boltEngine.reached Simple.library revisions)
        (Entry.object (document "d1")).ident).map (fun entry => (entry.createdAt, entry.updatedAt, entry.etag)) =
          some (some ⟨6, 0⟩, some ⟨7, 0⟩, "B#".toList) := by
  refine ⟨metadata_consistent_with_history simple_clearRows revisions ?_ ?_, by decide +kernel⟩
  · simp [revisions, Operation.BarFree, BarFreeMessage, BarFreeRow, barFree, titled, document, Simple.viewer]
  · apply simple_hashLaw
    have rows : rowsSet revisions = [.object (titled "A" "A#"), .object (titled "A" "x"),
      .object (titled "B" "B#"), .relation (Simple.viewer "d1" "u1"), .object (titled "A" "B#"),
      .object (titled "B" "A#"), .object (titled "B" "B#")] := rfl
    simp only [rows, List.mem_cons, List.not_mem_nil, or_false, forall_eq_or_imp, forall_eq]
    exact ⟨rfl, rfl, rfl, trivial, rfl, rfl, rfl⟩

end Sample

end Eamerald.Directory
