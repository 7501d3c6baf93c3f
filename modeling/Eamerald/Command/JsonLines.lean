import Eamerald.Command.MigrationProperties
import Eamerald.Foundation.Members

/-! Exports as files of JSON lines, and their import. The lines have no tag: a line is read as an
object, and as a relation if that has no type or no id. What the two kinds of line read as follows
from the names of their fields. -/

set_option autoImplicit false

namespace Eamerald.Command

open Foundation Store Directory

variable {ending : Except Err Unit}

section Model

/-- Values and texts of JSON as `protojson` prints and parses them. A value of null leaves a field as
it is. -/
structure ProtoJson (J : Type) where
  null : J
  isNull : J → Bool
  marshalString : GoString → Except Err J
  unmarshalString : J → Option GoString
  marshalTimestamp : Timestamp → Except Err J
  unmarshalTimestamp : J → Option Timestamp
  marshalStruct : List (GoString × PropertyValue) → Except Err J
  unmarshalStruct : J → Option (List (GoString × PropertyValue))
  print : List (GoString × J) → Except Err Bytes
  parse : Bytes → Option (List (GoString × J))
  quote : Bytes → GoString

inductive ObjectField where
  | type
  | id
  | displayName
  | properties
  | createdAt
  | updatedAt
  | etag
deriving DecidableEq, Repr

inductive RelationField where
  | objectType
  | objectId
  | relation
  | subjectType
  | subjectId
  | subjectRelation
  | createdAt
  | updatedAt
  | etag
deriving DecidableEq, Repr

def ObjectField.all : List ObjectField :=
  [.type, .id, .displayName, .properties, .createdAt, .updatedAt, .etag]

def RelationField.all : List RelationField :=
  [.objectType, .objectId, .relation, .subjectType, .subjectId, .subjectRelation, .createdAt, .updatedAt,
    .etag]

def ObjectField.protoName : ObjectField → GoString
  | .type => "type".toList
  | .id => "id".toList
  | .displayName => "display_name".toList
  | .properties => "properties".toList
  | .createdAt => "created_at".toList
  | .updatedAt => "updated_at".toList
  | .etag => "etag".toList

def ObjectField.jsonName : ObjectField → GoString
  | .type => "type".toList
  | .id => "id".toList
  | .displayName => "displayName".toList
  | .properties => "properties".toList
  | .createdAt => "createdAt".toList
  | .updatedAt => "updatedAt".toList
  | .etag => "etag".toList

def RelationField.protoName : RelationField → GoString
  | .objectType => "object_type".toList
  | .objectId => "object_id".toList
  | .relation => "relation".toList
  | .subjectType => "subject_type".toList
  | .subjectId => "subject_id".toList
  | .subjectRelation => "subject_relation".toList
  | .createdAt => "created_at".toList
  | .updatedAt => "updated_at".toList
  | .etag => "etag".toList

def RelationField.jsonName : RelationField → GoString
  | .objectType => "objectType".toList
  | .objectId => "objectId".toList
  | .relation => "relation".toList
  | .subjectType => "subjectType".toList
  | .subjectId => "subjectId".toList
  | .subjectRelation => "subjectRelation".toList
  | .createdAt => "createdAt".toList
  | .updatedAt => "updatedAt".toList
  | .etag => "etag".toList

namespace ProtoJson

variable {J : Type} (json : ProtoJson J)

/-- All fields are printed; one that is not set is null. -/
def optional {α : Type} (marshal : α → Except Err J) : Option α → Except Err J
  | none => .ok json.null
  | some value => marshal value

def assign {α M : Type} (unmarshal : J → Option α) (put : α → M) (message : M) (value : J) : Option M :=
  if json.isNull value then some message else (unmarshal value).map put

def objectSchema : Schema ObjectField Object J GoString Err where
  fields := ObjectField.all
  name := ObjectField.protoName
  otherName := ObjectField.jsonName
  zero := Object.zero
  get object
    | .type => json.marshalString object.type
    | .id => json.marshalString object.id
    | .displayName => json.marshalString object.displayName
    | .properties => json.optional json.marshalStruct object.properties
    | .createdAt => json.optional json.marshalTimestamp object.createdAt
    | .updatedAt => json.optional json.marshalTimestamp object.updatedAt
    | .etag => json.marshalString object.etag
  set field value object :=
    match field with
    | .type => json.assign json.unmarshalString (fun text => { object with type := text }) object value
    | .id => json.assign json.unmarshalString (fun text => { object with id := text }) object value
    | .displayName =>
        json.assign json.unmarshalString (fun text => { object with displayName := text }) object value
    | .properties =>
        json.assign json.unmarshalStruct (fun fields => { object with properties := some fields }) object
          value
    | .createdAt =>
        json.assign json.unmarshalTimestamp (fun time => { object with createdAt := some time }) object
          value
    | .updatedAt =>
        json.assign json.unmarshalTimestamp (fun time => { object with updatedAt := some time }) object
          value
    | .etag => json.assign json.unmarshalString (fun text => { object with etag := text }) object value

def relationSchema : Schema RelationField Relation J GoString Err where
  fields := RelationField.all
  name := RelationField.protoName
  otherName := RelationField.jsonName
  zero := Relation.zero
  get relation
    | .objectType => json.marshalString relation.objectType
    | .objectId => json.marshalString relation.objectId
    | .relation => json.marshalString relation.relation
    | .subjectType => json.marshalString relation.subjectType
    | .subjectId => json.marshalString relation.subjectId
    | .subjectRelation => json.marshalString relation.subjectRelation
    | .createdAt => json.optional json.marshalTimestamp relation.createdAt
    | .updatedAt => json.optional json.marshalTimestamp relation.updatedAt
    | .etag => json.marshalString relation.etag
  set field value relation :=
    match field with
    | .objectType =>
        json.assign json.unmarshalString (fun text => { relation with objectType := text }) relation value
    | .objectId =>
        json.assign json.unmarshalString (fun text => { relation with objectId := text }) relation value
    | .relation =>
        json.assign json.unmarshalString (fun text => { relation with relation := text }) relation value
    | .subjectType =>
        json.assign json.unmarshalString (fun text => { relation with subjectType := text }) relation value
    | .subjectId =>
        json.assign json.unmarshalString (fun text => { relation with subjectId := text }) relation value
    | .subjectRelation =>
        json.assign json.unmarshalString (fun text => { relation with subjectRelation := text }) relation
          value
    | .createdAt =>
        json.assign json.unmarshalTimestamp (fun time => { relation with createdAt := some time }) relation
          value
    | .updatedAt =>
        json.assign json.unmarshalTimestamp (fun time => { relation with updatedAt := some time }) relation
          value
    | .etag => json.assign json.unmarshalString (fun text => { relation with etag := text }) relation value

end ProtoJson

def newline : UInt8 := 10

def dropCR (line : Bytes) : Bytes := if line.getLast? = some 13 then line.dropLast else line

/-- The last part of a text is a line only if there is something in it. -/
def dropFinal : List Bytes → List Bytes
  | [] => []
  | [last] => if last = [] then [] else [last]
  | part :: next :: rest => part :: dropFinal (next :: rest)

/-- `bufio.ScanLines`, before the carriage return at the end of a line is dropped. -/
def scanLines (text : Bytes) : List Bytes := dropFinal (text.splitOn newline)

/-- The lines of a file of JSON. `jsonx.Unmarshal` discards unknown fields. -/
def ProtoJson.lines {J : Type} (json : ProtoJson J) : JsonLines Bytes where
  encodeObject object := (json.objectSchema.write object).bind json.print
  encodeRelation relation := (json.relationSchema.write relation).bind json.print
  unmarshalObject line := (json.parse (dropCR line)).bind json.objectSchema.read
  unmarshalRelation line := (json.parse (dropCR line)).bind json.relationSchema.read
  length := List.length
  quote line := json.quote (dropCR line)

def fileText (lines : List Bytes) : Bytes := lines.flatMap fun line => line ++ [newline]

/-- `importFromReader` on a text, and on the end of its reader. -/
def importText {J : Type} (json : ProtoJson J) (ending : Except Err Unit) (text : Bytes) :
    List ImportRequest × Except Err Unit :=
  importFromReader json.lines ending (scanLines text)

end Model

section Scanning

theorem dropFinal_cons {rest : List Bytes} (part : Bytes) (more : rest ≠ []) :
    dropFinal (part :: rest) = part :: dropFinal rest := by
  cases rest with
  | nil => exact absurd rfl more
  | cons next rest => rfl

theorem scanLines_fileText {lines : List Bytes} (single : ∀ line ∈ lines, newline ∉ line) :
    scanLines (fileText lines) = lines := by
  induction lines with
  | nil => rfl
  | cons line rest ih =>
      obtain ⟨here, later⟩ := List.forall_mem_cons.mp single
      have text : fileText (line :: rest) = line ++ newline :: fileText rest := by simp [fileText]
      rw [scanLines, text, List.splitOn_append_cons_self_of_not_mem here,
        dropFinal_cons line (List.splitOn_ne_nil _ _)]
      exact congrArg (line :: ·) (ih later)

end Scanning

section Laws

variable {J : Type} (json : ProtoJson J)

def ProtoJson.Reads {α : Type} (marshal : α → Except Err J) (unmarshal : J → Option α) : Prop :=
  ∀ {content value}, marshal content = .ok value →
    json.isNull value = false ∧ unmarshal value = some content

structure ProtoJson.Lawful : Prop where
  null : json.isNull json.null = true
  strings : json.Reads json.marshalString json.unmarshalString
  timestamps : json.Reads json.marshalTimestamp json.unmarshalTimestamp
  structs : json.Reads json.marshalStruct json.unmarshalStruct
  texts : ∀ {members text}, json.print members = .ok text →
    json.parse text = some members ∧ newline ∉ text ∧ text.getLast? ≠ some 13

variable {json} {α M : Type} {marshal : α → Except Err J} {unmarshal : J → Option α}

theorem assign_marshalled (reads : json.Reads marshal unmarshal) {content : α} {value : J}
    (written : marshal content = .ok value) (put : α → M) (message : M) :
    json.assign unmarshal put message value = some (put content) := by
  obtain ⟨set, read⟩ := reads written
  simp [ProtoJson.assign, set, read]

theorem assign_optional (null : json.isNull json.null = true) (reads : json.Reads marshal unmarshal)
    {content : Option α} {value : J} (written : json.optional marshal content = .ok value) (put : α → M)
    (message : M) : json.assign unmarshal put message value = some (content.elim message put) := by
  cases content with
  | none =>
      cases written
      simp [ProtoJson.assign, null]
  | some content => exact assign_marshalled reads written put message

theorem assign_keeps {β : Type} {part : M → β} {put : α → M} {message after : M} {value : J}
    (assigned : json.assign unmarshal put message value = some after)
    (keeps : ∀ content, part (put content) = part message) : part after = part message := by
  unfold ProtoJson.assign at assigned
  split at assigned
  · cases assigned
    rfl
  · obtain ⟨content, _, rfl⟩ := Option.map_eq_some_iff.mp assigned
    exact keeps content

def ObjectField.copy (field : ObjectField) (source target : Object) : Object :=
  match field with
  | .type => { target with type := source.type }
  | .id => { target with id := source.id }
  | .displayName => { target with displayName := source.displayName }
  | .properties => source.properties.elim target fun fields => { target with properties := some fields }
  | .createdAt => source.createdAt.elim target fun time => { target with createdAt := some time }
  | .updatedAt => source.updatedAt.elim target fun time => { target with updatedAt := some time }
  | .etag => { target with etag := source.etag }

def RelationField.copy (field : RelationField) (source target : Relation) : Relation :=
  match field with
  | .objectType => { target with objectType := source.objectType }
  | .objectId => { target with objectId := source.objectId }
  | .relation => { target with relation := source.relation }
  | .subjectType => { target with subjectType := source.subjectType }
  | .subjectId => { target with subjectId := source.subjectId }
  | .subjectRelation => { target with subjectRelation := source.subjectRelation }
  | .createdAt => source.createdAt.elim target fun time => { target with createdAt := some time }
  | .updatedAt => source.updatedAt.elim target fun time => { target with updatedAt := some time }
  | .etag => { target with etag := source.etag }

variable (lawful : json.Lawful)

include lawful

theorem objectSchema_lawful : json.objectSchema.Lawful ObjectField.copy where
  finds field _ := by cases field <;> rfl
  distinct := show ObjectField.all.Nodup by decide
  restores {source field value} written target := by
    cases field with
    | type | id | displayName | etag => exact assign_marshalled lawful.strings written _ _
    | properties => exact assign_optional lawful.null lawful.structs written _ _
    | createdAt | updatedAt => exact assign_optional lawful.null lawful.timestamps written _ _
  complete source := by
    obtain ⟨type, id, displayName, properties, createdAt, updatedAt, etag⟩ := source
    cases properties <;> cases createdAt <;> cases updatedAt <;> rfl

theorem relationSchema_lawful : json.relationSchema.Lawful RelationField.copy where
  finds field _ := by cases field <;> rfl
  distinct := show RelationField.all.Nodup by decide
  restores {source field value} written target := by
    cases field with
    | objectType | objectId | relation | subjectType | subjectId | subjectRelation | etag =>
        exact assign_marshalled lawful.strings written _ _
    | createdAt | updatedAt => exact assign_optional lawful.null lawful.timestamps written _ _
  complete source := by
    obtain ⟨objectType, objectId, relation, subjectType, subjectId, subjectRelation, createdAt, updatedAt,
      etag⟩ := source
    cases createdAt <;> cases updatedAt <;> rfl

end Laws

section Kinds

variable {J : Type} {json : ProtoJson J} {members : List (GoString × J)}

/-- The fields of an object that have the name of a field of a relation, and the other way round. -/
def RelationField.shared : RelationField → Option ObjectField
  | .createdAt => some .createdAt
  | .updatedAt => some .updatedAt
  | .etag => some .etag
  | _ => none

def ObjectField.shared : ObjectField → Option RelationField
  | .createdAt => some .createdAt
  | .updatedAt => some .updatedAt
  | .etag => some .etag
  | _ => none

theorem find_relationName (field : RelationField) : json.objectSchema.find field.protoName = field.shared := by
  cases field <;> rfl

theorem find_objectName (field : ObjectField) : json.relationSchema.find field.protoName = field.shared := by
  cases field <;> rfl

theorem type_of_relation {relation : Relation} {object : Object}
    (written : json.relationSchema.write relation = .ok members)
    (read : json.objectSchema.read members = some object) : object.type = [] := by
  refine json.objectSchema.read_keeps json.relationSchema Object.type written ?_ read
  intro origin field found value before after set
  have shared : origin.shared = some field := (find_relationName origin).symm.trans found
  cases origin with
  | objectType | objectId | relation | subjectType | subjectId | subjectRelation => cases shared
  | createdAt | updatedAt | etag =>
      cases shared
      exact assign_keeps set fun _ => rfl

theorem objectType_of_object {object : Object} {relation : Relation}
    (written : json.objectSchema.write object = .ok members)
    (read : json.relationSchema.read members = some relation) : relation.objectType = [] := by
  refine json.relationSchema.read_keeps json.objectSchema Relation.objectType written ?_ read
  intro origin field found value before after set
  have shared : origin.shared = some field := (find_objectName origin).symm.trans found
  cases origin with
  | type | id | displayName | properties => cases shared
  | createdAt | updatedAt | etag =>
      cases shared
      exact assign_keeps set fun _ => rfl

variable (lawful : json.Lawful)

include lawful

theorem members_of_line {members : Except Err (List (GoString × J))} {line : Bytes}
    (written : members.bind json.print = .ok line) :
    ∃ listed, members = .ok listed ∧ json.parse (dropCR line) = some listed ∧ newline ∉ line := by
  obtain ⟨listed, rfl, printed⟩ := except_bind_eq_ok.mp written
  obtain ⟨parsed, single, closed⟩ := lawful.texts printed
  have same : dropCR line = line := if_neg closed
  exact ⟨listed, rfl, same.symm ▸ parsed, single⟩

theorem lines_lawful : json.lines.Lawful where
  object written := by
    obtain ⟨members, listed, parsed, _⟩ := members_of_line lawful written
    exact Option.bind_eq_some_iff.mpr ⟨members, parsed, (objectSchema_lawful lawful).read_write listed⟩
  relation written := by
    obtain ⟨members, listed, parsed, _⟩ := members_of_line lawful written
    exact Option.bind_eq_some_iff.mpr ⟨members, parsed, (relationSchema_lawful lawful).read_write listed⟩
  noRelation written read := by
    obtain ⟨members, listed, parsed, _⟩ := members_of_line lawful written
    obtain ⟨found, same, read⟩ := Option.bind_eq_some_iff.mp read
    cases parsed.symm.trans same
    exact objectType_of_object listed read
  noObject written read := by
    obtain ⟨members, listed, parsed, _⟩ := members_of_line lawful written
    obtain ⟨found, same, read⟩ := Option.bind_eq_some_iff.mp read
    cases parsed.symm.trans same
    exact type_of_relation listed read

theorem newline_not_mem {entry : Entry} {line : Bytes} (written : encoded json.lines entry = .ok line) :
    newline ∉ line := by
  cases entry with
  | object message =>
      obtain ⟨_, _, _, single⟩ := members_of_line lawful written
      exact single
  | relation message =>
      obtain ⟨_, _, _, single⟩ := members_of_line lawful written
      exact single

end Kinds

section Importing

variable {L : Type} {json : JsonLines L}

/-- What the import makes of a line, if it is an object or a relation. -/
def lineRequest (json : JsonLines L) (line : L) : Option ImportRequest :=
  (objectLine json line).or (relationLine json line)

/-- Whatever identifies a row is there, as validation requires. -/
def Identified : Entry → Prop
  | .object message => message.type ≠ [] ∧ message.id ≠ []
  | .relation message => message.objectType ≠ [] ∧ message.objectId ≠ [] ∧ message.relation ≠ [] ∧
      message.subjectType ≠ [] ∧ message.subjectId ≠ []

theorem lineRequest_encoded (lawful : json.Lawful) {entry : Entry} {line : L}
    (identified : Identified entry) (written : encoded json entry = .ok line) :
    lineRequest json line = some entry.message.setRequest := by
  cases entry with
  | object message =>
      have complete : message.type ≠ [] ∧ message.id ≠ [] := identified
      simp only [lineRequest, objectLine, lawful.object written, if_pos complete]
      rfl
  | relation message =>
      have noObject : objectLine json line = none := by
        unfold objectLine
        cases found : json.unmarshalObject line with
        | none => rfl
        | some object => simp [lawful.noObject written found]
      have complete : message.objectType ≠ [] ∧ message.objectId ≠ [] ∧ message.relation ≠ [] ∧
        message.subjectType ≠ [] ∧ message.subjectId ≠ [] := identified
      simp only [lineRequest, noObject, Option.none_or, relationLine, lawful.relation written,
        if_pos complete]
      rfl

theorem importFromReader_exported (lawful : json.Lawful) {entries : List Entry}
    {lines : List L} (identified : ∀ entry ∈ entries, Identified entry)
    (written : exportToFile json ending (entries.map Entry.message) = (lines, .ok ()))
    (short : ∀ line ∈ lines, json.length line < max16Mb) :
    importFromReader json ending lines = (entries.map fun entry => entry.message.setRequest, .ok ()) := by
  induction entries generalizing lines with
  | nil =>
      cases written
      rfl
  | cons entry rest ih =>
      obtain ⟨here, later⟩ := List.forall_mem_cons.mp identified
      obtain ⟨line, lines, encodes, rfl, others⟩ := exportToFile_cons written
      obtain ⟨fits, short⟩ := List.forall_mem_cons.mp short
      have request : (objectLine json line).or (relationLine json line) = _ :=
        lineRequest_encoded lawful here encodes
      rw [importFromReader, if_neg (Nat.not_le.mpr fits), request, ih later others short]
      rfl

theorem importFromReader_stops {lines : List L} {index : Nat} {line : L}
    (here : lines[index]? = some line) (neither : lineRequest json line = none) :
    ∃ error sent count, importFromReader json ending lines = (sent, .error error) ∧ count ≤ index ∧
      sent.map some = (lines.take count).map (lineRequest json) := by
  induction lines generalizing index with
  | nil => simp at here
  | cons first rest ih =>
      unfold importFromReader
      split
      · exact ⟨_, [], 0, rfl, Nat.zero_le _, rfl⟩
      · cases parsed : (objectLine json first).or (relationLine json first) with
        | none => exact ⟨_, [], 0, rfl, Nat.zero_le _, rfl⟩
        | some request =>
            cases index with
            | zero =>
                cases here
                cases parsed.symm.trans neither
            | succ index =>
                obtain ⟨error, sent, count, ran, before, same⟩ := ih here
                refine ⟨error, request :: sent, count + 1, ?_, Nat.succ_le_succ before, ?_⟩
                · rw [ran]
                · simp [same, lineRequest, parsed]

end Importing

section Files

theorem encoded_of_exported {L : Type} {json : JsonLines L} {entries : List Entry}
    {lines : List L} (written : exportToFile json ending (entries.map Entry.message) = (lines, .ok ())) :
    ∀ line ∈ lines, ∃ entry, encoded json entry = .ok line := by
  induction entries generalizing lines with
  | nil =>
      cases written
      simp
  | cons entry rest ih =>
      obtain ⟨line, lines, encodes, rfl, others⟩ := exportToFile_cons written
      exact List.forall_mem_cons.mpr ⟨⟨entry, encodes⟩, ih others⟩

/-- Exported rows are imported as they were, one request for each line, and the import of any text
stops with an error at the first line that is neither an object nor a relation, if not before. -/
theorem json_lines_lossless {J : Type} {json : ProtoJson J} (lawful : json.Lawful) :
    (∀ (entries : List Entry) (lines : List Bytes), (∀ entry ∈ entries, Identified entry) →
      exportToFile json.lines (.ok ()) (entries.map Entry.message) = (lines, .ok ()) →
      (∀ line ∈ lines, line.length < max16Mb) →
        importText json (.ok ()) (fileText lines) =
          (entries.map fun entry => entry.message.setRequest, .ok ())) ∧
    ∀ (ending : Except Err Unit) (text : Bytes) (index : Nat) (line : Bytes),
      (scanLines text)[index]? = some line → lineRequest json.lines line = none →
        ∃ error sent count, importText json ending text = (sent, .error error) ∧ count ≤ index ∧
          sent.map some = ((scanLines text).take count).map (lineRequest json.lines) := by
  constructor
  · intro entries lines identified written short
    have single : ∀ line ∈ lines, newline ∉ line := fun line member => by
      obtain ⟨entry, encodes⟩ := encoded_of_exported written line member
      exact newline_not_mem lawful encodes
    rw [importText, scanLines_fileText single]
    exact importFromReader_exported (lines_lawful lawful) identified written short
  · intro ending text index line here neither
    exact importFromReader_stops here neither

def tabled (documents : List (List (GoString × Option GoString))) : ProtoJson (Option GoString) where
  null := none
  isNull := Option.isNone
  marshalString text := .ok (some text)
  unmarshalString := id
  marshalTimestamp _ := .error (.engine "timestamp")
  unmarshalTimestamp _ := none
  marshalStruct _ := .error (.engine "struct")
  unmarshalStruct _ := none
  print members :=
    match documents.idxOf? members with
    | some index => .ok (List.replicate (index + 1) 123)
    | none => .error (.engine "document")
  parse text := documents[text.length - 1]?
  quote _ := []

theorem tabled_lawful (documents : List (List (GoString × Option GoString))) : (tabled documents).Lawful where
  null := rfl
  strings written := by
    cases written
    exact ⟨rfl, rfl⟩
  timestamps written := by cases written
  structs written := by cases written
  texts {members text} written := by
    simp only [tabled] at written
    split at written
    · rename_i index found
      cases written
      obtain ⟨bound, same, _⟩ := List.idxOf?_eq_some_iff.mp found
      refine ⟨?_, by simp [newline], by simp [List.getLast?_replicate]⟩
      change documents[(List.replicate (index + 1) (123 : UInt8)).length - 1]? = some members
      rw [List.length_replicate, Nat.add_sub_cancel, List.getElem?_eq_getElem bound]
      exact congrArg some same
    · cases written

def sharedEntries : List Entry :=
  [.object { type := "doc".toList, id := "d1".toList }, .relation (Simple.viewer "d1" "u1")]

def sharedMembers : List (List (GoString × Option GoString)) :=
  sharedEntries.map fun entry =>
    match entry with
    | .object message => ((tabled []).objectSchema.write message).toOption.getD []
    | .relation message => ((tabled []).relationSchema.write message).toOption.getD []

theorem shared_lines_imported :
    exportToFile (tabled sharedMembers).lines (.ok ()) (sharedEntries.map Entry.message) =
        ([[123], [123, 123]], .ok ()) ∧
      importText (tabled sharedMembers) (.ok ()) [123, 10, 123, 123, 10] =
        (sharedEntries.map fun entry => entry.message.setRequest, .ok ()) := by
  have written : exportToFile (tabled sharedMembers).lines (.ok ()) (sharedEntries.map Entry.message) =
      ([[123], [123, 123]], .ok ()) := by decide +kernel
  have identified : ∀ entry ∈ sharedEntries, Identified entry := by
    simp [sharedEntries, Identified, Simple.viewer]
  exact ⟨written, (json_lines_lossless (tabled_lawful sharedMembers)).1 sharedEntries _ identified written
    (by decide)⟩

end Files

end Eamerald.Command
