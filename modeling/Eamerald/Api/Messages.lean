import Mathlib

/-! The directory's messages and errors. Message strings are valid UTF-8, so a
string is its sequence of code points; byte order and byte prefixes of UTF-8
texts agree with code point order and code point prefixes. Numbers in object
properties are kept as the bits of their double. `Err.rejected` is a refusal by
the request validators or the model library, with the detail it may carry,
`Err.engine` a failure of the key-value engine or of message decoding. -/

set_option autoImplicit false

namespace Eamerald

abbrev GoString := List Char

instance lawfulBEqGoString : LawfulBEq GoString := inferInstance

def isSpace (char : Char) : Bool :=
  char.toNat ∈ [0x09, 0x0a, 0x0b, 0x0c, 0x0d, 0x20, 0x85, 0xa0, 0x1680, 0x2028, 0x2029, 0x202f,
    0x205f, 0x3000] || (0x2000 ≤ char.toNat && char.toNat ≤ 0x200a)

def trimSpace (text : GoString) : GoString :=
  ((text.dropWhile isSpace).reverse.dropWhile isSpace).reverse

def isSet (text : GoString) : Bool := trimSpace text != []

theorem ne_nil_of_isSet {text : GoString} (set : isSet text) : text ≠ [] := by
  rintro rfl
  cases set

theorem isSet_of_noSpace {text : GoString} (present : text ≠ [])
    (noSpace : ∀ char ∈ text, isSpace char = false) : isSet text := by
  have kept (part : GoString) (free : ∀ char ∈ part, isSpace char = false) :
      part.dropWhile isSpace = part := by
    cases part with
    | nil => rfl
    | cons char rest => exact List.dropWhile_cons_of_neg (by simp [free char List.mem_cons_self])
  have whole : trimSpace text = text := by
    unfold trimSpace
    rw [kept text noSpace, kept text.reverse fun char member => noSpace char (by simpa using member),
      List.reverse_reverse]
  simp [isSet, whole, present]

def byteLength (text : GoString) : Nat := (text.map Char.utf8Size).sum

@[simp] theorem byteLength_append (left right : GoString) :
    byteLength (left ++ right) = byteLength left + byteLength right := by
  simp [byteLength]

@[simp] theorem byteLength_cons (head : Char) (tail : GoString) :
    byteLength (head :: tail) = head.utf8Size + byteLength tail := by
  simp [byteLength]

@[simp] theorem byteLength_nil : byteLength [] = 0 := rfl

abbrev Bytes := List UInt8

structure Timestamp where
  seconds : Int
  nanos : Int
deriving DecidableEq, Repr

inductive PropertyValue where
  | null
  | number (bits : UInt64)
  | string (text : GoString)
  | bool (flag : Bool)
  | list (values : List PropertyValue)
  | struct (fields : List (GoString × PropertyValue))

@[ext] structure ObjectIdentifier where
  objectType : GoString
  objectId : GoString
deriving DecidableEq, Repr

structure Object where
  type : GoString
  id : GoString
  displayName : GoString := []
  properties : Option (List (GoString × PropertyValue)) := none
  createdAt : Option Timestamp := none
  updatedAt : Option Timestamp := none
  etag : GoString := []

def Object.ident (object : Object) : ObjectIdentifier := ⟨object.type, object.id⟩

@[ext] structure RelationIdentifier where
  objectType : GoString
  objectId : GoString
  relation : GoString
  subjectType : GoString
  subjectId : GoString
  subjectRelation : GoString
deriving DecidableEq, Repr

def RelationIdentifier.object (ident : RelationIdentifier) : ObjectIdentifier :=
  ⟨ident.objectType, ident.objectId⟩

def RelationIdentifier.subject (ident : RelationIdentifier) : ObjectIdentifier :=
  ⟨ident.subjectType, ident.subjectId⟩

def RelationIdentifier.zero : RelationIdentifier := ⟨[], [], [], [], [], []⟩

structure Relation where
  objectType : GoString
  objectId : GoString
  relation : GoString
  subjectType : GoString
  subjectId : GoString
  subjectRelation : GoString
  createdAt : Option Timestamp := none
  updatedAt : Option Timestamp := none
  etag : GoString := []
deriving DecidableEq, Repr

def Relation.ident (relation : Relation) : RelationIdentifier :=
  ⟨relation.objectType, relation.objectId, relation.relation, relation.subjectType,
    relation.subjectId, relation.subjectRelation⟩

/-- The zero messages are what the getters of a nil message read. -/
def Object.zero : Object := { type := [], id := [] }

def Relation.zero : Relation :=
  { objectType := [], objectId := [], relation := [], subjectType := [], subjectId := [],
    subjectRelation := [] }

structure Metadata where
  updatedAt : Option Timestamp := none
  etag : GoString := []
deriving DecidableEq, Repr

structure Body where
  data : Bytes
deriving DecidableEq, Repr

inductive GrpcCode where
  | notFound
  | alreadyExists
  | failedPrecondition
  | invalidArgument
deriving DecidableEq, Repr

structure AsertoError where
  code : String
  grpc : GrpcCode
  http : Nat
  text : String
deriving DecidableEq, Repr

inductive Derr where
  | hashMismatch
  | invalidObject
  | invalidRelation
  | invalidArgument
  | invalidOpCode
  | unknownOpCode
  | objectNotFound
  | unknown
deriving DecidableEq, Repr

inductive Err where
  | aserto (error : AsertoError)
  | derr (kind : Derr) (message : GoString)
  | engine (text : String)
  | rejected (message : GoString) (detail : Option GoString)
deriving DecidableEq, Repr

/-- `status.Code(err) == codes.NotFound`. -/
def Err.isNotFound : Err → Bool
  | .aserto error => error.grpc = .notFound
  | .derr kind _ => kind = .objectNotFound
  | .engine _ => false
  | .rejected _ _ => false

/-- `status.FromError(err)` finds a status, which plain Go errors do not have. -/
def Err.hasStatus : Err → Bool
  | .engine _ => false
  | _ => true

end Eamerald
