import Eamerald.Directory.Simple
import Eamerald.Directory.Tables

/-! Rows of both kinds together. The contents of a store are one map from places to
entries, and storing entries one after the other changes it at their places. -/

set_option autoImplicit false

namespace Eamerald.Directory

open Foundation Store

inductive Entry where
  | object (message : Object)
  | relation (message : Relation)

namespace Entry

variable {μ : Type} (library : Library μ)

/-- The row without timestamps and etag. -/
def bare : Entry → Entry
  | .object message => .object { message with createdAt := none, updatedAt := none, etag := [] }
  | .relation message => .relation { message with createdAt := none, updatedAt := none, etag := [] }

def etag : Entry → GoString
  | .object message => message.etag
  | .relation message => message.etag

def hash : Entry → GoString
  | .object message => library.hashObject message
  | .relation message => library.hashRelation message.ident

/-- What storing an entry takes for the entry itself. -/
def Tagged (entry old : Entry) : Prop :=
  old.etag = entry.hash library ∨ old.etag = [] ∧ entry.etag = entry.hash library

def store (now : Timestamp) : Entry → Tx μ PUnit
  | .object message => storeObject library now message
  | .relation message => storeRelation library now message

def read : Entry → Tx μ Entry
  | .object message => do
      return .object (← Program.lift (.getObject message.type message.id))
  | .relation message => do
      return .relation (← Program.lift (.getRelationExact message.ident))

end Entry

def entriesOf (objects : List Object) (relations : List Relation) : List Entry :=
  objects.map .object ++ relations.map .relation

section Places

variable {κ ι ν : Type}

def Data.entry (data : Data κ ι ν) : κ ⊕ ι → Option Entry
  | .inl place => (data.objects place).map .object
  | .inr place => (data.relations place).map .relation

variable [DecidableEq κ] [DecidableEq ι]

theorem entry_set_objects (data : Data κ ι ν) (place : κ) (row : Option Object) :
    (objectPart.set data (Function.update (objectPart.get data) place row)).entry =
      Function.update data.entry (.inl place) (row.map .object) := by
  funext other
  cases other with
  | inl other =>
      by_cases same : other = place
      · subst same
        simp [Data.entry, objectPart]
      · simp [Data.entry, objectPart, same]
  | inr other => simp [Data.entry, objectPart]

theorem entry_set_relations (data : Data κ ι ν) (place : ι) (row : Option Relation) :
    (relationPart.set data (Function.update (relationPart.get data) place row)).entry =
      Function.update data.entry (.inr place) (row.map .relation) := by
  funext other
  cases other with
  | inl other => simp [Data.entry, relationPart]
  | inr other =>
      by_cases same : other = place
      · subst same
        simp [Data.entry, relationPart]
      · simp [Data.entry, relationPart, same]

end Places

namespace Layout

variable {μ σ κ ι ν : Type} [DecidableEq κ] [DecidableEq ι] {library : Library μ}
  {backend : Backend μ σ} (layout : Layout library backend κ ι ν)

def entry (state : σ) : κ ⊕ ι → Option Entry := (layout.data state).entry

def place : Entry → κ ⊕ ι
  | .object message => .inl (layout.objects.key message.ident)
  | .relation message => .inr (layout.relations.key message.ident)

def Fits : Entry → Prop
  | .object message => layout.objects.fits message.ident
  | .relation message => layout.relations.fits message.ident

@[simp] theorem place_bare (entry : Entry) : layout.place entry.bare = layout.place entry := by
  cases entry <;> rfl

theorem place_of_entry {state : σ} (sound : layout.sound state) {place : κ ⊕ ι} {entry : Entry}
    (found : layout.entry state place = some entry) : layout.place entry = place := by
  cases place with
  | inl place =>
      obtain ⟨message, stored, rfl⟩ := Option.map_eq_some_iff.mp found
      exact congrArg Sum.inl (layout.objects.keyed sound stored)
  | inr place =>
      obtain ⟨message, stored, rfl⟩ := Option.map_eq_some_iff.mp found
      exact congrArg Sum.inr (layout.relations.keyed sound stored)

theorem view_read {state : σ} (sound : layout.sound state) {entry stored : Entry} :
    view backend entry.read state = .ok stored ↔ layout.entry state (layout.place entry) = some stored := by
  cases entry with
  | object message =>
      have answer := layout.objects.read sound message.ident
      have answered : backend.exec (.getObject message.type message.id) state = _ := answer
      simp only [view, Entry.read, Program.bind_eq, Program.run_bind, Program.run_lift, answered,
        place, Layout.entry, Data.entry]
      change _ ↔ (objectPart.get (layout.data state) (layout.objects.key message.ident)).map _ = _
      cases objectPart.get (layout.data state) (layout.objects.key message.ident) with
      | none => simp
      | some found => simp
  | relation message =>
      have answer := layout.relations.read sound message.ident
      have answered : backend.exec (.getRelationExact message.ident) state = _ := answer
      simp only [view, Entry.read, Program.bind_eq, Program.run_bind, Program.run_lift, answered,
        place, Layout.entry, Data.entry]
      change _ ↔ (relationPart.get (layout.data state) (layout.relations.key message.ident)).map _ = _
      cases relationPart.get (layout.data state) (layout.relations.key message.ident) with
      | none => simp
      | some found => simp

theorem scans_all {state : σ} (sound : layout.sound state) {objects : Iterator Object}
    {relations : Iterator Relation}
    (scansObjects : backend.exec (.scanObjects [] []) state = (.ok objects, state))
    (scansRelations : backend.exec (.scanRelations .byObject {} []) state = (.ok relations, state)) :
    ((entriesOf objects.values relations.values).map layout.place).Nodup ∧
      ∀ stored, stored ∈ entriesOf objects.values relations.values ↔
        layout.entry state (layout.place stored) = some stored := by
  obtain ⟨_, scanned, _, objectsDistinct, objectsListed⟩ := layout.objects.scans sound
  cases scanned.symm.trans scansObjects
  obtain ⟨_, scanned, _, relationsDistinct, relationsListed⟩ := layout.relations.scans sound
  cases scanned.symm.trans scansRelations
  constructor
  · have left : _ := objectsDistinct.map (Sum.inl_injective (α := κ) (β := ι))
    have right : _ := relationsDistinct.map (Sum.inr_injective (α := κ) (β := ι))
    rw [List.map_map] at left right
    rw [entriesOf, List.map_append, List.map_map, List.map_map]
    refine left.append right fun place inLeft inRight => ?_
    obtain ⟨_, _, rfl⟩ := List.mem_map.mp inLeft
    obtain ⟨_, _, same⟩ := List.mem_map.mp inRight
    cases same
  · intro stored
    cases stored with
    | object message =>
        simp only [entriesOf, List.mem_append, List.mem_map, Entry.object.injEq, exists_eq_right, reduceCtorEq,
          and_false, exists_false, or_false, objectsListed]
        simp [entry, place, Data.entry, objectPart, objectKind]
    | relation message =>
        simp only [entriesOf, List.mem_append, List.mem_map, Entry.relation.injEq, exists_eq_right, reduceCtorEq,
          and_false, exists_false, false_or, relationsListed]
        simp [entry, place, Data.entry, relationPart, relationKind]

/-- What storing an entry does: nothing if it is taken to be there, otherwise it is written
at its place, tagged with its hash. -/
def Takes (entry : Entry) (before after : σ) : Prop :=
  (∃ old, layout.entry before (layout.place entry) = some old ∧ entry.Tagged library old ∧
      after = before) ∨
    layout.Fits entry ∧ ∃ new : Entry, new.bare = entry.bare ∧ new.etag = entry.hash library ∧
      layout.entry after = Function.update (layout.entry before) (layout.place entry) (some new)

def TakesAll : List Entry → σ → σ → Prop
  | [], before, after => after = before
  | entry :: rest, before, after =>
      ∃ middle, layout.Takes entry before middle ∧ TakesAll rest middle after

section Sequences

variable {layout} {before after : σ} {entries : List Entry} {entry : Entry}

theorem Takes.entry_of_ne (takes : layout.Takes entry before after) {place : κ ⊕ ι}
    (other : place ≠ layout.place entry) : layout.entry after place = layout.entry before place := by
  rcases takes with ⟨_, _, _, rfl⟩ | ⟨_, new, _, _, changed⟩
  · rfl
  · rw [changed, Function.update_of_ne other]

theorem TakesAll.entry_of_notMem (takes : layout.TakesAll entries before after)
    {place : κ ⊕ ι} (other : place ∉ entries.map layout.place) :
    layout.entry after place = layout.entry before place := by
  induction entries generalizing before with
  | nil =>
      cases takes
      rfl
  | cons entry rest ih =>
      obtain ⟨middle, first, later⟩ := takes
      rw [List.map_cons, List.mem_cons, not_or] at other
      exact (ih later other.2).trans (first.entry_of_ne other.1)

/-- With a place of its own, an entry is taken to be there from the beginning, or it is there
in the end, tagged with its hash. -/
theorem TakesAll.entry_of_mem (takes : layout.TakesAll entries before after)
    (distinct : (entries.map layout.place).Nodup) (member : entry ∈ entries) :
    (∃ old, layout.entry before (layout.place entry) = some old ∧ entry.Tagged library old ∧
        layout.entry after (layout.place entry) = some old) ∨
      ∃ new : Entry, new.bare = entry.bare ∧ new.etag = entry.hash library ∧
        layout.entry after (layout.place entry) = some new := by
  induction entries generalizing before with
  | nil => cases member
  | cons head rest ih =>
      obtain ⟨middle, first, later⟩ := takes
      rw [List.map_cons, List.nodup_cons] at distinct
      rcases List.mem_cons.mp member with rfl | member
      · have kept := later.entry_of_notMem distinct.1
        rcases first with ⟨old, found, tagged, rfl⟩ | ⟨_, new, bare, tag, changed⟩
        · exact .inl ⟨old, found, tagged, kept.trans found⟩
        · refine .inr ⟨new, bare, tag, kept.trans ?_⟩
          rw [changed, Function.update_self]
      · have apart : layout.place entry ≠ layout.place head := by
          intro same
          exact distinct.1 (same ▸ List.mem_map_of_mem member)
        rw [← first.entry_of_ne apart]
        exact ih later distinct.2 member

theorem TakesAll.fits_of_mem (takes : layout.TakesAll entries before after)
    (distinct : (entries.map layout.place).Nodup) (member : entry ∈ entries)
    (free : layout.entry before (layout.place entry) = none) : layout.Fits entry := by
  induction entries generalizing before with
  | nil => cases member
  | cons head rest ih =>
      obtain ⟨middle, first, later⟩ := takes
      rw [List.map_cons, List.nodup_cons] at distinct
      rcases List.mem_cons.mp member with rfl | member
      · rcases first with ⟨old, found, _⟩ | ⟨fits, _⟩
        · cases free.symm.trans found
        · exact fits
      · have apart : layout.place entry ≠ layout.place head := by
          intro same
          exact distinct.1 (same ▸ List.mem_map_of_mem member)
        exact ih later distinct.2 member ((first.entry_of_ne apart).trans free)

end Sequences

variable (hashed : ∀ entry : Entry, entry.hash library ≠ []) {state : σ}

include hashed

theorem run_store (now : Timestamp) (entry : Entry) (sound : layout.sound state) :
    (∃ after, (entry.store library now).run backend state = (.ok ⟨⟩, after) ∧ layout.sound after ∧
        (layout.data after).rest = (layout.data state).rest ∧ layout.Takes entry state after) ∨
      ¬ layout.Fits entry ∧ ∃ error, error.hasStatus = true ∧
        (entry.store library now).run backend state = (.error error, state) := by
  cases entry with
  | object message =>
      simp only [Entry.store, storeObject_eq]
      rcases layout.objects.run_store now sound (hashed (.object message)) with
        ⟨old, found, tagged, ran⟩ | ⟨fits, new, after, content, tag, ran, kept, changed⟩ |
        ⟨large, ran⟩
      · refine .inl ⟨state, ran, sound, rfl, .inl ⟨.object old, ?_, tagged, rfl⟩⟩
        exact Option.map_eq_some_iff.mpr ⟨old, found, rfl⟩
      · refine .inl ⟨after, ran, kept, ?_, .inr ⟨fits, .object new, ?_, tag, ?_⟩⟩
        · rw [changed]
          rfl
        · exact congrArg Entry.object content
        · exact (congrArg Data.entry changed).trans (entry_set_objects _ _ _)
      · exact .inr ⟨large, _, rfl, ran⟩
  | relation message =>
      simp only [Entry.store, storeRelation_eq]
      rcases layout.relations.run_store now sound (hashed (.relation message)) with
        ⟨old, found, tagged, ran⟩ | ⟨fits, new, after, content, tag, ran, kept, changed⟩ |
        ⟨large, ran⟩
      · refine .inl ⟨state, ran, sound, rfl, .inl ⟨.relation old, ?_, tagged, rfl⟩⟩
        exact Option.map_eq_some_iff.mpr ⟨old, found, rfl⟩
      · refine .inl ⟨after, ran, kept, ?_, .inr ⟨fits, .relation new, ?_, tag, ?_⟩⟩
        · rw [changed]
          rfl
        · exact congrArg Entry.relation content
        · exact (congrArg Data.entry changed).trans (entry_set_relations _ _ _)
      · exact .inr ⟨large, _, rfl, ran⟩

theorem run_store_of_tagged (now : Timestamp) {entry old : Entry} (sound : layout.sound state)
    (found : layout.entry state (layout.place entry) = some old) (tagged : entry.Tagged library old) :
    (entry.store library now).run backend state = (.ok ⟨⟩, state) := by
  cases entry with
  | object message =>
      obtain ⟨stored, there, rfl⟩ := Option.map_eq_some_iff.mp found
      rw [Entry.store, storeObject_eq]
      exact layout.objects.run_store_of_tagged now sound (hashed (.object message)) there tagged
  | relation message =>
      obtain ⟨stored, there, rfl⟩ := Option.map_eq_some_iff.mp found
      rw [Entry.store, storeRelation_eq]
      exact layout.relations.run_store_of_tagged now sound (hashed (.relation message)) there tagged

end Layout

theorem simple_hashed (entry : Entry) : entry.hash Simple.library ≠ [] := by
  cases entry with
  | object message => exact List.append_ne_nil_of_right_ne_nil _ (List.cons_ne_nil _ _)
  | relation message => simp [Entry.hash, Simple.library, Bolt.objKeyOf, Bolt.KeyFields.key]

end Eamerald.Directory
