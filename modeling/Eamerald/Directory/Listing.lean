import Eamerald.Directory.Reader

/-! The listings of the reader service: all objects, or those of a type, and all
relations that match a pattern, a page at a time. -/

set_option autoImplicit false

namespace Eamerald.Directory

open Foundation Store

section Pages

variable {α : Type}

/-- What one page took from an iterator: whether `Next` has answered false meanwhile. -/
structure Page (α : Type) where
  items : List α
  nextToken : GoString := []
  exhausted : Bool

/-- Take the rows that are accepted, up to the given number of them. The token is the one of
the row behind the page. -/
def takePage (accept : α → Bool) (pageSize : Int32) : List (Row α) → List α → Page α
  | [], items => { items, exhausted := true }
  | row :: rest, items =>
      if !accept row.value then takePage accept pageSize rest items
      else
        let items := items ++ [row.value]
        if (items.length : Int) = pageSize.toInt then
          match rest with
          | [] => { items, exhausted := true }
          | next :: _ => { items, nextToken := next.token, exhausted := false }
        else takePage accept pageSize rest items

def page (iterator : Iterator α) (pageSize : Int32) : Page α :=
  takePage (fun _ => true) pageSize iterator.rows []

/-- `Close` reports an error that ended the rows, once they were read to their end. -/
def closeAfter (iterator : Iterator α) (taken : Page α) : Except Err PUnit :=
  match taken.exhausted, iterator.closeError with
  | true, some error => .error error
  | _, _ => .ok ⟨⟩

end Pages

section Requests

structure PaginationRequest where
  size : Int32
  token : GoString := []
deriving DecidableEq, Repr

def maxPageSize : Int32 := 100

structure GetObjectsRequest where
  objectType : GoString := []
  page : Option PaginationRequest := none
deriving DecidableEq, Repr

structure GetObjectsResponse where
  results : List Object
  nextToken : GoString

structure GetRelationsRequest where
  objectType : GoString := []
  objectId : GoString := []
  relation : GoString := []
  subjectType : GoString := []
  subjectId : GoString := []
  subjectRelation : GoString := []
  withObjects : Bool := false
  withEmptySubjectRelation : Bool := false
  page : Option PaginationRequest := none
deriving DecidableEq, Repr

structure GetRelationsResponse where
  results : List Relation
  nextToken : GoString
  objects : Named Object := ∅

/-- What the listings need of the request validators and the model library. -/
structure ListLibrary (μ : Type) extends Library μ where
  getObjectsRequest : GetObjectsRequest → Except Err Unit
  validateObjectSelector : μ → ObjectIdentifier → Except Err Unit
  getRelationsRequest : GetRelationsRequest → Except Err Unit
  safeGetRelations : GetRelationsRequest → SafeRelation

end Requests

def PropertyValue.stringValue : PropertyValue → GoString
  | .string text => text
  | _ => []

def propDisplayName : GoString := "display_name".toList

/-- The display name in the properties takes precedence. -/
def patchObjectRead (object : Object) : Object :=
  match (object.properties.getD []).lookup propDisplayName with
  | some displayName => { object with displayName := PropertyValue.stringValue displayName }
  | none => object

section Service

variable {μ : Type} (library : ListLibrary μ) (model : μ)

def listObjects (objectType : GoString) (pagination : PaginationRequest) :
    Tx μ GetObjectsResponse := do
  let iterator ← Program.lift (.scanObjects objectType pagination.token)
  let taken := page iterator pagination.size
  return { results := taken.items.map patchObjectRead, nextToken := taken.nextToken }

def getObjects (request : GetObjectsRequest) : Tx μ GetObjectsResponse := do
  Program.done (library.getObjectsRequest request)
  if request.objectType ≠ [] then
    Program.done (library.validateObjectSelector model ⟨request.objectType, []⟩)
  listObjects request.objectType (request.page.getD ⟨maxPageSize, []⟩)

def listRelations (withObjects : Bool) (pagination : PaginationRequest) (direction : Direction)
    (filter : RelationFilter) (valueFilter : RelationIdentifier → Bool) :
    Tx μ GetRelationsResponse := do
  let iterator ← Program.lift (.scanRelations direction filter pagination.token)
  let taken := takePage (fun relation => valueFilter relation.ident) pagination.size iterator.rows []
  Program.done (closeAfter iterator taken)
  if withObjects then
    return { results := taken.items, nextToken := taken.nextToken,
             objects := ← getWithObjects taken.items ∅ }
  return { results := taken.items, nextToken := taken.nextToken }

def getRelations (request : GetRelationsRequest) : Tx μ GetRelationsResponse := do
  Program.done (library.getRelationsRequest request)
  let pattern := library.safeGetRelations request
  Program.done (library.validateRelations model pattern)
  let (direction, filter, valueFilter) := pattern.filter library.toLibrary
  listRelations request.withObjects (request.page.getD ⟨maxPageSize, []⟩) direction filter
    valueFilter

end Service

end Eamerald.Directory
