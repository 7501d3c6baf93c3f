import Mathlib

/-! Messages as lists of named members. A field is written under one name and read under several;
members with other names are skipped, and a second member for a field is an error. -/

set_option autoImplicit false

namespace Eamerald.Foundation

/-- A type of messages by its fields, in the order in which they are written. -/
structure Schema (φ M J N ε : Type) where
  fields : List φ
  name : φ → N
  otherName : φ → N
  zero : M
  get : M → φ → Except ε J
  set : φ → J → M → Option M

namespace Schema

variable {φ M J N ε : Type} (schema : Schema φ M J N ε) {members : List (N × J)} {message : M}

section Writing

def writeFields (message : M) : List φ → Except ε (List (N × J))
  | [] => .ok []
  | field :: rest => do
      let value ← schema.get message field
      let members ← writeFields message rest
      .ok ((schema.name field, value) :: members)

def write (message : M) : Except ε (List (N × J)) := schema.writeFields message schema.fields

theorem writeFields_cons {field : φ} {rest : List φ}
    (written : schema.writeFields message (field :: rest) = .ok members) :
    ∃ value more, schema.get message field = .ok value ∧
      schema.writeFields message rest = .ok more ∧ members = (schema.name field, value) :: more := by
  unfold writeFields at written
  cases got : schema.get message field with
  | error error =>
      rw [got] at written
      cases written
  | ok value =>
      cases others : schema.writeFields message rest with
      | error error =>
          rw [got, others] at written
          cases written
      | ok more =>
          rw [got, others] at written
          cases written
          exact ⟨value, more, rfl, rfl, rfl⟩

theorem names_writeFields {fields : List φ} (written : schema.writeFields message fields = .ok members) :
    members.map Prod.fst = fields.map schema.name := by
  induction fields generalizing members with
  | nil =>
      cases written
      rfl
  | cons field rest ih =>
      obtain ⟨value, more, _, others, rfl⟩ := schema.writeFields_cons written
      exact congrArg (schema.name field :: ·) (ih others)

end Writing

section Reading

variable [DecidableEq φ] [DecidableEq N]

def find (name : N) : Option φ :=
  schema.fields.find? fun field => schema.otherName field = name ∨ schema.name field = name

def readInto (seen : List φ) (message : M) : List (N × J) → Option M
  | [] => some message
  | (name, value) :: rest =>
      match schema.find name with
      | none => readInto seen message rest
      | some field =>
          if field ∈ seen then none
          else (schema.set field value message).bind fun message =>
            readInto (field :: seen) message rest

def read (members : List (N × J)) : Option M := schema.readInto [] schema.zero members

theorem readInto_keeps {β : Type} (part : M → β) {seen : List φ} {result : M}
    (keeps : ∀ member ∈ members, ∀ field, schema.find member.1 = some field →
      ∀ before after, schema.set field member.2 before = some after → part after = part before)
    (read : schema.readInto seen message members = some result) : part result = part message := by
  induction members generalizing seen message with
  | nil => cases read; rfl
  | cons member rest ih =>
      have later := fun other found => keeps other (List.mem_cons_of_mem member found)
      unfold readInto at read
      split at read
      · exact ih later read
      · rename_i field found
        split at read
        · cases read
        · obtain ⟨next, set, read⟩ := Option.bind_eq_some_iff.mp read
          exact (ih later read).trans (keeps member List.mem_cons_self field found message next set)

/-- What another kind of message wrote leaves a part as it is if none of its names is a field that
sets the part. -/
theorem read_keeps {ψ S β : Type} (other : Schema ψ S J N ε) (part : M → β) {source : S} {result : M} (written : other.write source = .ok members)
    (keeps : ∀ origin field, schema.find (other.name origin) = some field →
      ∀ value before after, schema.set field value before = some after → part after = part before)
    (read : schema.read members = some result) : part result = part schema.zero := by
  refine schema.readInto_keeps part ?_ read
  intro member listed field found before after set
  have named : member.1 ∈ other.fields.map other.name :=
    other.names_writeFields written ▸ List.mem_map_of_mem listed
  obtain ⟨origin, _, same⟩ := List.mem_map.mp named
  exact keeps origin field (same ▸ found) member.2 before after set

/-- Each field is found under its name, and is set to what was got from it. `copy` says what that
does to another message. -/
structure Lawful (copy : φ → M → M → M) : Prop where
  finds : ∀ field ∈ schema.fields, schema.find (schema.name field) = some field
  distinct : schema.fields.Nodup
  restores : ∀ {message field value}, schema.get message field = .ok value →
    ∀ other, schema.set field value other = some (copy field message other)
  complete : ∀ message, schema.fields.foldl (fun other field => copy field message other) schema.zero =
    message

variable {schema} {copy : φ → M → M → M} (lawful : schema.Lawful copy)

include lawful

theorem Lawful.readInto_writeFields {fields seen : List φ}
    (known : ∀ field ∈ fields, field ∈ schema.fields ∧ field ∉ seen) (distinct : fields.Nodup)
    (written : schema.writeFields message fields = .ok members) (other : M) :
    schema.readInto seen other members =
      some (fields.foldl (fun other field => copy field message other) other) := by
  induction fields generalizing seen members other with
  | nil =>
      cases written
      rfl
  | cons field rest ih =>
      obtain ⟨here, later⟩ := List.forall_mem_cons.mp known
      obtain ⟨absent, distinct⟩ := List.nodup_cons.mp distinct
      obtain ⟨value, more, got, others, rfl⟩ := schema.writeFields_cons written
      have fresh : ∀ next ∈ rest, next ∈ schema.fields ∧ next ∉ field :: seen := fun next member =>
        ⟨(later next member).1, List.not_mem_cons_of_ne_of_not_mem
          (fun same => absent (same ▸ member)) (later next member).2⟩
      rw [readInto, lawful.finds field here.1]
      simp only [if_neg here.2, lawful.restores got, Option.bind_some]
      exact ih fresh distinct others _

/-- A message reads as it was written. -/
theorem Lawful.read_write
    (written : schema.write message = .ok members) : schema.read members = some message := by
  have known : ∀ field ∈ schema.fields, field ∈ schema.fields ∧ field ∉ ([] : List φ) :=
    fun field member => ⟨member, List.not_mem_nil⟩
  rw [read, lawful.readInto_writeFields known lawful.distinct written, lawful.complete]

end Reading

end Schema

end Eamerald.Foundation
