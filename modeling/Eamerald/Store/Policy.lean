import Eamerald.Store.Interface

/-! Which rows a transaction may write and remove, as a contract of the
transaction operations. Relations found by a scan may be removed. -/

set_option autoImplicit false

namespace Eamerald.Store

open Foundation

structure RowPolicy where
  object : (objectType objectId : GoString) → Prop
  relation : RelationIdentifier → Prop
  removable : RelationIdentifier → Prop
  manifest : Prop

def RowPolicy.contract {μ : Type} (policy : RowPolicy) : Contract (TxOp μ) Err where
  requires
    | .setObject object => policy.object object.type object.id
    | .setRelation relation => policy.relation relation.ident
    | .deleteRelation ident => policy.removable ident
    | .setManifest _ _ => policy.manifest
    | .setManifestModel _ => policy.manifest
    | .deleteManifest => policy.manifest
    | _ => True
  ensures
    | .scanRelations _ _ _, answer => ∀ iterator, answer = .ok iterator →
        ∀ relation ∈ iterator.values, policy.removable relation.ident
    | _, _ => True

end Eamerald.Store
