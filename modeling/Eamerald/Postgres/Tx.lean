import Eamerald.Api.Wire
import Eamerald.Store.Interface

/-! The transaction operations over Postgres tables. A table is a map from its
primary key to the encoded row; the etag and timestamp columns are written but
never selected. What the server decides is a parameter: how texts collate, in
which order an unordered query returns its rows, and how the JSON of page tokens
and of an empty model reads. -/

set_option autoImplicit false

namespace Eamerald.Postgres

open Store

def errNotFound : Err := .aserto ⟨"E20150", .notFound, 404, "key not found"⟩

inductive Column where
  | objectType
  | objectId
  | relation
  | subjectType
  | subjectId
  | subjectRelation
deriving DecidableEq, Repr

def column (ident : RelationIdentifier) : Column → GoString
  | .objectType => ident.objectType
  | .objectId => ident.objectId
  | .relation => ident.relation
  | .subjectType => ident.subjectType
  | .subjectId => ident.subjectId
  | .subjectRelation => ident.subjectRelation

def objectOrderCols : List Column :=
  [.objectType, .objectId, .relation, .subjectType, .subjectId, .subjectRelation]

def subjectOrderCols : List Column :=
  [.subjectType, .subjectId, .relation, .objectType, .objectId, .subjectRelation]

def orderCols : Direction → List Column
  | .bySubject => subjectOrderCols
  | .byObject => objectOrderCols

section PrimaryKeys

def objectColumns (ident : ObjectIdentifier) : List GoString := [ident.objectType, ident.objectId]

def relationColumns (ident : RelationIdentifier) : List GoString :=
  objectOrderCols.map (column ident)

theorem objectColumns_injective : Function.Injective objectColumns := by
  intro left right same
  simp only [objectColumns, List.cons.injEq, and_true] at same
  exact ObjectIdentifier.ext same.1 same.2

theorem relationColumns_injective : Function.Injective relationColumns := by
  intro left right same
  simp only [relationColumns, objectOrderCols, column, List.map_cons, List.map_nil,
    List.cons.injEq, and_true] at same
  obtain ⟨objectType, objectId, relation, subjectType, subjectId, subjectRelation⟩ := same
  exact RelationIdentifier.ext objectType objectId relation subjectType subjectId subjectRelation

instance : Ord ObjectIdentifier := ⟨compareOn objectColumns⟩

instance : Std.TransOrd ObjectIdentifier := inferInstanceAs (Std.TransCmp (compareOn objectColumns))

instance : Std.LawfulEqOrd ObjectIdentifier where
  compare_self := Std.ReflOrd.compare_self (α := List GoString)
  eq_of_compare same :=
    objectColumns_injective (Std.LawfulEqOrd.eq_of_compare (α := List GoString) same)

instance : Ord RelationIdentifier := ⟨compareOn relationColumns⟩

instance : Std.TransOrd RelationIdentifier :=
  inferInstanceAs (Std.TransCmp (compareOn relationColumns))

instance : Std.LawfulEqOrd RelationIdentifier where
  compare_self := Std.ReflOrd.compare_self (α := List GoString)
  eq_of_compare same :=
    relationColumns_injective (Std.LawfulEqOrd.eq_of_compare (α := List GoString) same)

end PrimaryKeys

structure ManifestRow (ω : Type) where
  metadata : ω
  body : ω
  model : ω

structure Tables (ω : Type) where
  objects : Std.ExtTreeMap ObjectIdentifier ω
  relations : Std.ExtTreeMap RelationIdentifier ω
  manifest : Option (ManifestRow ω)

structure Server (ω : Type) where
  collate : GoString → GoString → Ordering
  unordered : List (RelationIdentifier × ω) → List (RelationIdentifier × ω)
  unordered_perm : ∀ rows, (unordered rows).Perm rows
  tokens : Codec GoString (List GoString)
  emptyModel : ω

section PlainServer

/-- Texts in one text: every character is marked, every text ends with a dot. -/
def joinTexts (texts : List GoString) : GoString :=
  texts.flatMap fun text => text.flatMap (fun char => ['+', char]) ++ ['.']

def splitTexts : GoString → GoString → Except Err (List GoString)
  | [], current => if current = [] then .ok [] else .error (.engine "decode page token")
  | [_], current => (splitTexts [] []).map (current :: ·)
  | mark :: char :: rest, current =>
      if mark = '+' then splitTexts rest (current ++ [char])
      else (splitTexts (char :: rest) []).map (current :: ·)

theorem splitTexts_marked (text rest current : GoString) :
    splitTexts (text.flatMap (fun char => ['+', char]) ++ rest) current =
      splitTexts rest (current ++ text) := by
  induction text generalizing current with
  | nil => simp
  | cons char text ih => simp [splitTexts, ih]

theorem splitTexts_joinTexts (texts : List GoString) : splitTexts (joinTexts texts) [] = .ok texts := by
  induction texts with
  | nil => rfl
  | cons text texts ih =>
      have cut : joinTexts (text :: texts) =
          text.flatMap (fun char => ['+', char]) ++ ('.' :: joinTexts texts) := by
        simp [joinTexts]
      rw [cut, splitTexts_marked]
      cases joined : joinTexts texts with
      | nil =>
          rw [joined] at ih
          rw [splitTexts, ih]
          rfl
      | cons char rest =>
          rw [joined] at ih
          rw [splitTexts, if_neg (by decide), ih]
          rfl

/-- A server that collates by code points and returns unordered rows by key. -/
def Server.plain {ω : Type} (emptyModel : ω) : Server ω where
  collate := compare
  unordered rows := rows
  unordered_perm rows := .refl rows
  tokens := ⟨joinTexts, fun token => splitTexts token [], splitTexts_joinTexts⟩
  emptyModel

end PlainServer

section Statements

variable {ω μ : Type} [Wire ω μ] (server : Server ω)

def encodeToken (values : List GoString) : GoString := server.tokens.marshal values

def decodeToken (token : GoString) (size : Nat) : Except Err (List GoString) :=
  match server.tokens.unmarshal token with
  | .error error => .error error
  | .ok values =>
      if values.length = size then .ok values
      else .error (.engine "decode page token: unexpected value count")

/-- `(a₁, …, aₙ) >= (b₁, …, bₙ)`. -/
def rowGE : List GoString → List GoString → Bool
  | left :: lefts, right :: rights =>
      match server.collate left right with
      | .lt => false
      | .gt => true
      | .eq => rowGE lefts rights
  | _, _ => true

/-- Only rows at or behind the token, when there is one. -/
def resume (pageToken : GoString) (size : Nat) : Except Err (List GoString → Bool) :=
  if pageToken = [] then .ok fun _ => true
  else
    match decodeToken server pageToken size with
    | .error error => .error error
    | .ok values => .ok fun row => rowGE server row values

def orderBy {α : Type} (columns : α → List GoString) (rows : List α) : List α :=
  rows.insertionSort fun left right => rowGE server (columns right) (columns left)

def select {M : Type} (codec : Codec ω M) : Option ω → Except Err M
  | none => .error errNotFound
  | some data => codec.unmarshal data

def relationConditions (filter : RelationFilter) : List (Column × GoString) :=
  (if filter.objectType ≠ [] then [(.objectType, filter.objectType)] else []) ++
  (if filter.objectId ≠ [] then [(.objectId, filter.objectId)] else []) ++
  (if filter.relation ≠ [] then [(.relation, filter.relation)] else []) ++
  (if filter.subjectType ≠ [] then [(.subjectType, filter.subjectType)] else []) ++
  (if filter.subjectId ≠ [] then [(.subjectId, filter.subjectId)] else []) ++
  if filter.hasSubjectRelation then [(.subjectRelation, filter.subjectRelation)] else []

def meetsConditions (conditions : List (Column × GoString)) (ident : RelationIdentifier) : Bool :=
  conditions.all fun condition => column ident condition.1 = condition.2

def scanObjects (objectType pageToken : GoString) (tables : Tables ω) :
    Except Err (Iterator Object) :=
  match resume server pageToken 2 with
  | .error error => .error error
  | .ok behind =>
      let rows := tables.objects.toList.filter fun row =>
        (objectType = [] || row.1.objectType = objectType) && behind (objectColumns row.1)
      .ok { rows := (orderBy server (fun row => objectColumns row.1) rows).map fun row =>
              ⟨(Wire.object.unmarshal row.2).toOption.getD .zero,
                encodeToken server (objectColumns row.1)⟩ }

def scanRelations (direction : Direction) (filter : RelationFilter) (pageToken : GoString)
    (tables : Tables ω) : Except Err (Iterator Relation) :=
  let columns := fun row : RelationIdentifier × ω => (orderCols direction).map (column row.1)
  match resume server pageToken (orderCols direction).length with
  | .error error => .error error
  | .ok behind =>
      let rows := tables.relations.toList.filter fun row =>
        meetsConditions (relationConditions filter) row.1 && behind (columns row)
      .ok { rows := (orderBy server columns rows).map fun row =>
              ⟨(Wire.relation.unmarshal row.2).toOption.getD .zero,
                encodeToken server (columns row)⟩ }

def scanRelationsFiltered (filter : RelationFilter) (valueFilter : RelationIdentifier → Bool)
    (out : List RelationIdentifier) (tables : Tables ω) : List RelationIdentifier :=
  let rows := tables.relations.toList.filter fun row =>
    meetsConditions (relationConditions filter) row.1
  out ++ ((server.unordered rows).map Prod.fst).filter valueFilter

def relationsExistForObject (direction : Direction) (objectType objectId : GoString)
    (tables : Tables ω) : Bool :=
  tables.relations.toList.any fun row =>
    match direction with
    | .bySubject => row.1.subjectType = objectType && row.1.subjectId = objectId
    | .byObject => row.1.objectType = objectType && row.1.objectId = objectId

def setManifest (metadata : Metadata) (body : Body) (tables : Tables ω) : Tables ω :=
  let model := (tables.manifest.map ManifestRow.model).getD server.emptyModel
  { tables with
    manifest := some ⟨Wire.metadata.marshal metadata, Wire.body.marshal body, model⟩ }

def setManifestModel (model : μ) (tables : Tables ω) : Except Err Unit × Tables ω :=
  match tables.manifest with
  | none =>
      (.error (.aserto ⟨"E20150", .notFound, 404, "set manifest model: key not found"⟩), tables)
  | some row =>
      (.ok (), { tables with manifest := some { row with model := Wire.model.marshal model } })

/-- Postgres as a storage backend, one statement after another. -/
def backend : Backend μ (Tables ω) where
  exec
    | .getObject objectType objectId, tables =>
        (select Wire.object tables.objects[(⟨objectType, objectId⟩ : ObjectIdentifier)]?, tables)
    | .setObject object, tables =>
        (.ok object, { tables with
          objects := tables.objects.insert object.ident (Wire.object.marshal object) })
    | .deleteObject objectType objectId, tables =>
        (.ok (), { tables with objects := tables.objects.erase ⟨objectType, objectId⟩ })
    | .scanObjects objectType pageToken, tables =>
        (scanObjects server objectType pageToken tables, tables)
    | .getRelationExact ident, tables => (select Wire.relation tables.relations[ident]?, tables)
    | .setRelation relation, tables =>
        (.ok relation, { tables with
          relations := tables.relations.insert relation.ident (Wire.relation.marshal relation) })
    | .deleteRelation ident, tables =>
        (.ok (), { tables with relations := tables.relations.erase ident })
    | .scanRelations direction filter pageToken, tables =>
        (scanRelations server direction filter pageToken tables, tables)
    | .scanRelationsFiltered _ filter valueFilter out, tables =>
        (.ok (scanRelationsFiltered server filter valueFilter out tables), tables)
    | .relationsExistForObject direction objectType objectId, tables =>
        (.ok (relationsExistForObject direction objectType objectId tables), tables)
    | .manifestExists, tables => (.ok tables.manifest.isSome, tables)
    | .getManifestMetadata, tables =>
        (select Wire.metadata (tables.manifest.map ManifestRow.metadata), tables)
    | .getManifestBody, tables =>
        (select Wire.body (tables.manifest.map ManifestRow.body), tables)
    | .getManifestModel, tables =>
        (select Wire.model (tables.manifest.map ManifestRow.model), tables)
    | .setManifest metadata body, tables => (.ok (), setManifest server metadata body tables)
    | .setManifestModel model, tables => setManifestModel model tables
    | .deleteManifest, _ => (.ok (), ⟨∅, ∅, none⟩)

end Statements

def emptyTables {ω : Type} : Tables ω := ⟨∅, ∅, none⟩

end Eamerald.Postgres
