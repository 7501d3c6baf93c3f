import Eamerald.Api.Messages

/-! Encoded messages. The stores only move encoded values around, so their
representation `ω` is a parameter, and all they rely on is that decoding what
was encoded gives the message back. Models `μ` are stored as JSON, every other
message as protobuf. -/

set_option autoImplicit false

namespace Eamerald

structure Codec (ω M : Type) where
  marshal : M → ω
  unmarshal : ω → Except Err M
  unmarshal_marshal : ∀ message, unmarshal (marshal message) = .ok message

attribute [simp] Codec.unmarshal_marshal

theorem Codec.marshal_injective {ω M : Type} (codec : Codec ω M) : Function.Injective codec.marshal := by
  intro left right same
  have decoded := congrArg codec.unmarshal same
  simpa using decoded

/-- The codecs of the stored messages. `unmarshalVT` merges a relation into a zero identifier. -/
class Wire (ω : Type) (μ : outParam Type) where
  object : Codec ω Object
  relation : Codec ω Relation
  metadata : Codec ω Metadata
  body : Codec ω Body
  model : Codec ω μ
  unmarshalVT : ω → RelationIdentifier → Except Err RelationIdentifier
  unmarshalVT_marshal : ∀ message,
    unmarshalVT (relation.marshal message) .zero = .ok message.ident

attribute [simp] Wire.unmarshalVT_marshal

inductive Blob (μ : Type) where
  | object (message : Object)
  | relation (message : Relation)
  | metadata (message : Metadata)
  | body (message : Body)
  | model (message : μ)

namespace Blob

variable {μ : Type}

def mismatch : Err := .engine "proto: cannot parse invalid wire-format data"

/-- A field absent from the encoded message keeps the value it had. -/
def merge (field current : GoString) : GoString := if field = [] then current else field

instance : Wire (Blob μ) μ where
  object :=
    { marshal := .object
      unmarshal := fun | .object message => .ok message | _ => .error mismatch
      unmarshal_marshal := fun _ => rfl }
  relation :=
    { marshal := .relation
      unmarshal := fun | .relation message => .ok message | _ => .error mismatch
      unmarshal_marshal := fun _ => rfl }
  metadata :=
    { marshal := .metadata
      unmarshal := fun | .metadata message => .ok message | _ => .error mismatch
      unmarshal_marshal := fun _ => rfl }
  body :=
    { marshal := .body
      unmarshal := fun | .body message => .ok message | _ => .error mismatch
      unmarshal_marshal := fun _ => rfl }
  model :=
    { marshal := .model
      unmarshal := fun | .model message => .ok message | _ => .error mismatch
      unmarshal_marshal := fun _ => rfl }
  unmarshalVT := fun
    | .relation message, ident => .ok
        { objectType := merge message.objectType ident.objectType
          objectId := merge message.objectId ident.objectId
          relation := merge message.relation ident.relation
          subjectType := merge message.subjectType ident.subjectType
          subjectId := merge message.subjectId ident.subjectId
          subjectRelation := merge message.subjectRelation ident.subjectRelation }
    | _, _ => .error mismatch
  unmarshalVT_marshal := by
    intro message
    have whole (field : GoString) : merge field [] = field := by
      unfold merge
      split <;> simp_all
    simp [RelationIdentifier.zero, Relation.ident, whole]

end Blob

end Eamerald
