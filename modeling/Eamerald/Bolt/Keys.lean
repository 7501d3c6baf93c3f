import Eamerald.Store.Interface

/-! Keys of the BoltDB buckets. The two relation indexes use one layout with the
object and the subject exchanged:

    obj:  obj_type:obj_id|relation|sub_type:sub_id(|sub_relation)
    sub:  sub_type:sub_id|relation|obj_type:obj_id(|sub_relation)

so both are written through `KeyFields`, whose anchor is the leading identifier. -/

set_option autoImplicit false

namespace Eamerald.Bolt

abbrev Key := GoString

def typeIDSeparator : Char := ':'

def instanceSeparator : Char := '|'

def objectKey (objectType objectId : GoString) : Key :=
  objectType ++ typeIDSeparator :: objectId

@[ext] structure KeyFields where
  anchor : ObjectIdentifier
  relation : GoString
  other : ObjectIdentifier
  subjectRelation : GoString
deriving DecidableEq, Repr

def KeyFields.tail (fields : KeyFields) : GoString :=
  fields.other.objectId ++
    if fields.subjectRelation ≠ [] then instanceSeparator :: fields.subjectRelation else []

def KeyFields.key (fields : KeyFields) : Key :=
  fields.anchor.objectType ++ typeIDSeparator ::
    (fields.anchor.objectId ++ instanceSeparator ::
      (fields.relation ++ instanceSeparator ::
        (fields.other.objectType ++ typeIDSeparator :: fields.tail)))

def objFields (ident : RelationIdentifier) : KeyFields :=
  ⟨ident.object, ident.relation, ident.subject, ident.subjectRelation⟩

def subFields (ident : RelationIdentifier) : KeyFields :=
  ⟨ident.subject, ident.relation, ident.object, ident.subjectRelation⟩

def objKeyOf (ident : RelationIdentifier) : Key := (objFields ident).key

def subKeyOf (ident : RelationIdentifier) : Key := (subFields ident).key

/-- The leading fields that are set, if the anchor is complete. The last id is not terminated. -/
def filterPrefix (anchor : ObjectIdentifier) (relation : GoString) (other : ObjectIdentifier) :
    Key :=
  if !isSet anchor.objectType || !isSet anchor.objectId then []
  else anchor.objectType ++ typeIDSeparator :: (anchor.objectId ++ instanceSeparator ::
    if !isSet relation then []
    else relation ++ instanceSeparator ::
      if !isSet other.objectType then []
      else other.objectType ++ typeIDSeparator ::
        if !isSet other.objectId then [] else other.objectId)

def writeObjFilter (filter : Store.RelationFilter) : Key :=
  filterPrefix ⟨filter.objectType, filter.objectId⟩ filter.relation
    ⟨filter.subjectType, filter.subjectId⟩

def writeSubFilter (filter : Store.RelationFilter) : Key :=
  filterPrefix ⟨filter.subjectType, filter.subjectId⟩ filter.relation
    ⟨filter.objectType, filter.objectId⟩

def scanPrefix (direction : Store.Direction) (filter : Store.RelationFilter) : Key :=
  match direction with
  | .bySubject => writeSubFilter filter
  | .byObject => writeObjFilter filter

def indexKey (direction : Store.Direction) (ident : RelationIdentifier) : Key :=
  match direction with
  | .bySubject => subKeyOf ident
  | .byObject => objKeyOf ident

end Eamerald.Bolt
