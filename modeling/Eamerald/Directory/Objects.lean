import Eamerald.Directory.Listing
import Eamerald.Directory.Writer

/-! The reads of single objects in the reader service: one object, with the relations it takes
part in if they are asked for, and many objects by their identifiers. -/

set_option autoImplicit false

namespace Eamerald.Directory

open Foundation Store

structure GetObjectRequest where
  objectType : GoString
  objectId : GoString
  withRelations : Bool := false
deriving DecidableEq, Repr

/-- There is no result if the caller has the object already. -/
structure GetObjectResponse where
  result : Option Object := none
  relations : List Relation := []

structure ReadLibrary (μ : Type) extends ListLibrary μ where
  getObjectRequest : GetObjectRequest → Except Err Unit
  getObjectManyRequest : List ObjectIdentifier → Except Err Unit

section Service

variable {μ : Type}

def relationsOf (object : Object) : Tx μ (List Relation) := do
  let incoming ← relationsByObject .bySubject object.type object.id
  let outgoing ← relationsByObject .byObject object.type object.id
  return incoming ++ outgoing

def readObject (ifNoneMatch : List GoString) (request : GetObjectRequest) :
    Tx μ GetObjectResponse := do
  let object ← Program.lift (.getObject request.objectType request.objectId)
  if object.etag ∈ ifNoneMatch then return {}
  if request.withRelations then
    return { result := some (patchObjectRead object), relations := ← relationsOf object }
  return { result := some (patchObjectRead object) }

def readObjects : List ObjectIdentifier → List Object → Tx μ (List Object)
  | [], results => return results
  | ident :: rest, results => do
      let object ← Program.lift (.getObject ident.objectType ident.objectId)
      readObjects rest (results ++ [patchObjectRead object])

variable (library : ReadLibrary μ) (model : μ)

def Reader.getObject (ifNoneMatch : List GoString) (request : GetObjectRequest) : Tx μ GetObjectResponse := do
  Program.done (library.getObjectRequest request)
  Program.done (library.validateObjectIdentifier model ⟨request.objectType, request.objectId⟩)
  readObject ifNoneMatch request

/-- All identifiers are validated before the first object is read. -/
def Reader.getObjectMany (param : List ObjectIdentifier) : Tx μ (List Object) := do
  Program.done (library.getObjectManyRequest param)
  Program.done (param.forM fun ident => library.validateObjectIdentifier model ident)
  readObjects param []

end Service

end Eamerald.Directory
