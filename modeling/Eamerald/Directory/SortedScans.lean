import Eamerald.Directory.Engines

/-! What the scans of both backends list, in which order, and from where on when they are
given a token. A token stands for a place in the order, whether or not there is a row at it. -/

set_option autoImplicit false

namespace Eamerald.Bolt

open Foundation Store

section Scans

variable {ω M : Type} {codec : Codec ω M} {zero : M} {key : M → Key} {bucket : Bucket ω} {keyFilter : Key}

def scanned (codec : Codec ω M) (zero : M) (bucket : Bucket ω) (keyFilter : Key) : List M :=
  (scan bucket keyFilter keyFilter).map (decode codec zero)

variable (decodes : Decodes codec key bucket)

include decodes

theorem sorted_scanned : ((scanned codec zero bucket keyFilter).map key).Pairwise fun left right =>
      compare left right = .lt := by
  rw [scanned, decodes.map_key zero fun entry => mem_toList_of_mem_scan, scan_self, List.pairwise_map]
  exact (increasing_keys bucket).filter _

theorem mem_scanned {message : M} : message ∈ scanned codec zero bucket keyFilter ↔
      rowAt codec bucket (key message) = some message ∧ keyFilter <+: key message := by
  have selected (entry : Key × ω) : entry ∈ scan bucket keyFilter keyFilter ↔
      entry ∈ bucket.toList ∧ decide (keyFilter <+: entry.1) = true := by
    rw [scan_self, List.mem_filter]
  have member : message ∈ scanned codec zero bucket keyFilter ↔
      rowAt codec bucket (key message) = some message ∧ decide (keyFilter <+: key message) = true :=
    decodes.mem_map zero (fun place => decide (keyFilter <+: place)) selected
  rw [member, decide_eq_true_iff]

theorem scanIterator_whole {path : Path} {db : BoltDB ω} (found : db.bucket path = some bucket) :
    scanIterator codec zero path keyFilter [] db =
      .ok { rows := (scanned codec zero bucket keyFilter).map fun message => ⟨message, key message⟩ } := by
  rw [scanIterator_first found, scanned, ← decodes.map_with_key zero (fun _ => mem_toList_of_mem_scan) Row.mk]
  rfl

theorem scanIterator_from {path : Path} {db : BoltDB ω} (found : db.bucket path = some bucket)
    {place : Key} (nonblank : place ≠ []) (begins : keyFilter <+: place) :
    scanIterator codec zero path keyFilter place db =
      .ok { rows := ((scanned codec zero bucket keyFilter).filter fun message =>
        (compare (key message) place).isGE).map fun message => ⟨message, key message⟩ } := by
  have kept : (fun entry : Key × ω => decide (compare entry.1 place ≠ .lt)) =
      fun entry => (compare entry.1 place).isGE := by
    funext entry
    cases compare entry.1 place <;> rfl
  have listed (entry : Key × ω) (member : entry ∈ scan bucket keyFilter keyFilter) :
      entry ∈ bucket.toList := mem_toList_of_mem_scan member
  rw [scanned, ← decodes.map_filter zero listed fun other => (compare other place).isGE,
    ← decodes.map_with_key zero (fun entry member => listed entry (List.mem_of_mem_filter member)) Row.mk]
  simp only [scanIterator, setBucket_of_some found, nonblank, ↓reduceIte, scan_of_prefix bucket begins, kept]
  rfl

end Scans

end Eamerald.Bolt

namespace Eamerald.Postgres

open Foundation Store

section Queries

variable {ω κ : Type} {server : Server ω} {columns : κ → List GoString} {size : Nat}

def compareColumns (server : Server ω) (columns : κ → List GoString) (left right : κ) : Ordering :=
  List.compareLex server.collate (columns left) (columns right)

variable (lawful : server.Lawful) (sized : ∀ key, (columns key).length = size)

include lawful

theorem transCmp_compareColumns : Std.TransCmp (compareColumns server columns) := by
  have := lawful.transitive
  have order : Std.TransCmp (List.compareLex server.collate) := inferInstance
  exact { eq_swap := order.eq_swap, isLE_trans := order.isLE_trans }

include sized

theorem rowGE_columns (left right : κ) :
    rowGE server (columns left) (columns right) = (compareColumns server columns left right).isGE := by
  have := lawful.transitive
  rw [Bool.eq_iff_iff, rowGE_iff lawful (by rw [sized, sized])]
  exact Std.OrientedCmp.isGE_iff_isLE.symm

variable [Ord κ] [Std.TransOrd κ] [Std.LawfulEqOrd κ] {map : Std.ExtTreeMap κ ω}
  (injective : Function.Injective columns)

include injective

theorem sorted_orderBy (accept : κ → Bool) :
    (orderBy server (fun row => columns row.1) (map.toList.filter fun row => accept row.1)).Pairwise
      fun left right => compareColumns server columns left.1 right.1 = .lt := by
  have := lawful.transitive
  have := lawful.exact
  have ordered := orderBy_sorted lawful (fun row : κ × ω => sized row.1)
    (map.toList.filter fun row => accept row.1)
  have distinct : ((orderBy server (fun row : κ × ω => columns row.1)
      (map.toList.filter fun row => accept row.1)).map fun row => columns row.1).Nodup :=
    ((orderBy_perm _).map _).nodup_iff.mpr (distinct_columns map injective _)
  have apart := List.pairwise_map.mp distinct
  refine (ordered.and apart).imp fun {left right} both => ?_
  have notAbove : (List.compareLex server.collate (columns left.1) (columns right.1)).isLE = true :=
    (rowGE_iff lawful (by rw [sized, sized])).mp both.1
  cases order : List.compareLex server.collate (columns left.1) (columns right.1) with
  | lt => exact order
  | eq => exact absurd (Std.LawfulEqCmp.eq_of_compare order) both.2
  | gt =>
      rw [order] at notAbove
      cases notAbove

theorem orderBy_filter (accept more : κ → Bool) :
    orderBy server (fun row => columns row.1) (map.toList.filter fun row => accept row.1 && more row.1) =
      (orderBy server (fun row => columns row.1) (map.toList.filter fun row => accept row.1)).filter
        fun row => more row.1 := by
  have : Std.TransCmp (compareColumns server columns) := transCmp_compareColumns lawful
  refine List.Perm.eq_of_pairwise ?_
    (sorted_orderBy lawful sized injective fun key => accept key && more key)
    ((sorted_orderBy lawful sized injective accept).filter _) ?_
  · intro left right _ _ first second
    exact absurd second (Std.OrientedCmp.not_lt_of_lt first)
  · refine (orderBy_perm _).trans ?_
    have whole : (map.toList.filter fun row => accept row.1 && more row.1) =
        (map.toList.filter fun row => accept row.1).filter fun row => more row.1 := by
      rw [List.filter_filter]
      exact List.filter_congr fun row _ => Bool.and_comm _ _
    rw [whole]
    exact ((orderBy_perm _).filter _).symm

end Queries

section Messages

variable {ω κ M : Type} [Ord κ] [Std.TransOrd κ] [Std.LawfulEqOrd κ] {server : Server ω}
  {codec : Codec ω M} {zero : M} {key : M → κ} {columns : κ → List GoString} {size : Nat}
  {map : Std.ExtTreeMap κ ω} {accept : κ → Bool}

def queried (server : Server ω) (codec : Codec ω M) (zero : M) (columns : κ → List GoString)
    (map : Std.ExtTreeMap κ ω) (accept : κ → Bool) : List M :=
  (orderBy server (fun row => columns row.1) (map.toList.filter fun row => accept row.1)).map
    (decode codec zero)

omit [Std.LawfulEqOrd κ] in
theorem mem_orderBy_iff (row : κ × ω) :
    row ∈ orderBy server (fun row => columns row.1) (map.toList.filter fun row => accept row.1) ↔
      row ∈ map.toList ∧ accept row.1 = true := by
  rw [(orderBy_perm _).mem_iff, List.mem_filter]

variable (decodes : Decodes codec key map)

include decodes

theorem mem_queried {message : M} : message ∈ queried server codec zero columns map accept ↔
      rowAt codec map (key message) = some message ∧ accept (key message) = true :=
  decodes.mem_map zero accept mem_orderBy_iff

theorem rows_queried (server : Server ω) (zero : M) (columns : κ → List GoString) (accept : κ → Bool)
    (token : κ → GoString) :
    ((orderBy server (fun row => columns row.1) (map.toList.filter fun row => accept row.1)).map
      fun row => (⟨decode codec zero row, token row.1⟩ : Row M)) =
      (queried server codec zero columns map accept).map fun message => ⟨message, token (key message)⟩ :=
  decodes.map_with_key zero (fun row member => ((mem_orderBy_iff row).mp member).1)
    fun message place => Row.mk message (token place)

variable (lawful : server.Lawful) (sized : ∀ key, (columns key).length = size)
  (injective : Function.Injective columns)

include lawful sized injective

theorem sorted_queried : ((queried server codec zero columns map accept).map key).Pairwise fun left right =>
      compareColumns server columns left right = .lt := by
  rw [queried, decodes.map_key zero fun row member => ((mem_orderBy_iff row).mp member).1,
    List.pairwise_map]
  exact sorted_orderBy lawful sized injective accept

theorem queried_from (place : κ) : queried server codec zero columns map
        (fun other => accept other && rowGE server (columns other) (columns place)) =
      (queried server codec zero columns map accept).filter fun message =>
        (compareColumns server columns (key message) place).isGE := by
  simp only [rowGE_columns lawful sized]
  rw [queried, orderBy_filter lawful sized injective accept
    fun other => (compareColumns server columns other place).isGE]
  exact decodes.map_filter zero (fun row member => ((mem_orderBy_iff row).mp member).1)
    fun other => (compareColumns server columns other place).isGE

end Messages

end Eamerald.Postgres

namespace Eamerald.Directory

open Foundation Store

def Selected (objectType : GoString) (ident : ObjectIdentifier) : Prop :=
  objectType = [] ∨ ident.objectType = objectType

instance (objectType : GoString) (ident : ObjectIdentifier) : Decidable (Selected objectType ident) :=
  inferInstanceAs (Decidable (_ ∨ _))

namespace Engine

variable {ω μ : Type} [Wire ω μ] {engine : Engine ω}

def compareObjects : Engine ω → ObjectIdentifier → ObjectIdentifier → Ordering
  | .bolt, left, right => compare (Bolt.objectPlace left) (Bolt.objectPlace right)
  | .postgres server, left, right => Postgres.compareColumns server Postgres.objectColumns left right

def objectToken : Engine ω → ObjectIdentifier → GoString
  | .bolt, ident => Bolt.objectPlace ident
  | .postgres server, ident => Postgres.encodeToken server (Postgres.objectColumns ident)

def objectRow (engine : Engine ω) (object : Object) : Row Object :=
  ⟨object, engine.objectToken object.ident⟩

def HoldsObject (μ : Type) [Wire ω μ] (engine : Engine ω) (state : engine.State) (object : Object) : Prop :=
  engine.backend.exec (TxOp.getObject (μ := μ) object.type object.id) state = (.ok object, state)

/-- All objects of a type, in order. A scan begins at the place of its token. -/
structure ListsObjects (μ : Type) [Wire ω μ] (engine : Engine ω) (objectType : GoString)
    (state : engine.State) (listed : List Object) : Prop where
  sorted : (listed.map Object.ident).Pairwise fun left right => engine.compareObjects left right = .lt
  holds : ∀ object, object ∈ listed ↔
    engine.HoldsObject μ state object ∧ Selected objectType object.ident
  whole : engine.backend.exec (TxOp.scanObjects (μ := μ) objectType []) state =
    (.ok { rows := listed.map engine.objectRow }, state)
  behind : ∀ place, Selected objectType place → engine.objectToken place ≠ [] ∧
    engine.backend.exec (TxOp.scanObjects (μ := μ) objectType (engine.objectToken place)) state =
      (.ok { rows := (listed.filter fun object =>
        (engine.compareObjects object.ident place).isGE).map engine.objectRow }, state)

theorem transCmp_compareObjects (lawful : engine.Lawful) : Std.TransCmp engine.compareObjects := by
  cases engine with
  | bolt =>
      have order : Std.TransCmp (compare : Bolt.Key → Bolt.Key → Ordering) := inferInstance
      exact { eq_swap := order.eq_swap, isLE_trans := order.isLE_trans }
  | postgres server => exact Postgres.transCmp_compareColumns lawful

def PlainTypes (μ : Type) [Wire ω μ] (engine : Engine ω) (state : engine.State) : Prop :=
  ∀ object, engine.HoldsObject μ state object → Bolt.PlainName object.type

def objectPrefix (objectType : GoString) : Bolt.Key :=
  if objectType ≠ [] then Bolt.objectKey objectType [] else []

theorem objectPrefix_of_selected {objectType : GoString} {ident : ObjectIdentifier}
    (selected : Selected objectType ident) : objectPrefix objectType <+: Bolt.objectPlace ident := by
  rcases selected with rfl | rfl
  · exact List.nil_prefix
  · unfold objectPrefix
    split
    · exact ⟨ident.objectId, by simp [Bolt.objectKey, Bolt.objectPlace]⟩
    · exact List.nil_prefix

theorem objectPrefix_iff {objectType : GoString} {ident : ObjectIdentifier}
    (plain : objectType ≠ [] → Bolt.PlainName objectType) (plainToo : Bolt.PlainName ident.objectType) :
    objectPrefix objectType <+: Bolt.objectPlace ident ↔ Selected objectType ident := by
  refine ⟨fun begins => ?_, objectPrefix_of_selected⟩
  by_cases blank : objectType = []
  · exact .inl blank
  · rw [objectPrefix, if_pos blank] at begins
    obtain ⟨rest, whole⟩ := begins
    rw [Bolt.objectKey, List.append_assoc, List.singleton_append] at whole
    exact .inr ((append_cons_inj_left (plain blank).1 plainToo.1).mp whole).1.symm

variable {library : Library μ}

theorem holdsObject_iff {state : engine.State} (sound : (engine.layout library).sound state) (object : Object) :
    engine.HoldsObject μ state object ↔
      ((engine.layout library).data state).objects ((engine.layout library).objects.key object.ident) =
        some object := by
  have answer : engine.backend.exec (TxOp.getObject (μ := μ) object.type object.id) state = _ :=
    (engine.layout library).objects.read sound object.ident
  rw [HoldsObject, answer]
  change ((((engine.layout library).data state).objects _).elim _ Except.ok, state) = _ ↔ _
  cases ((engine.layout library).data state).objects ((engine.layout library).objects.key object.ident) with
  | none => simp
  | some found => simp

variable {objectType : GoString}

theorem lists_bolt (library : Library μ) {db : Bolt.BoltDB ω} (filed : Bolt.Filed db)
    (plainTypes : PlainTypes μ .bolt db) (plain : objectType ≠ [] → Bolt.PlainName objectType) :
    ∃ listed, ListsObjects μ .bolt objectType db listed := by
  obtain ⟨bucket, found, decodes⟩ := filed.objects
  have sound : ((.bolt : Engine ω).layout library).sound db := filed
  have holds (object : Object) : HoldsObject μ .bolt db object ↔
      rowAt Wire.object bucket (Bolt.objectPlace object.ident) = some object := by
    rw [holdsObject_iff sound, ← Bolt.rowsOf_of_some found]
    rfl
  refine ⟨Bolt.scanned Wire.object .zero bucket (objectPrefix objectType), ?_, ?_, ?_, ?_⟩
  · rw [List.pairwise_map]
    exact List.pairwise_map.mp (Bolt.sorted_scanned decodes)
  · intro object
    rw [Bolt.mem_scanned decodes, holds]
    refine and_congr_right fun stored => objectPrefix_iff plain ?_
    exact plainTypes object ((holds object).mpr stored)
  · exact Prod.ext (Bolt.scanIterator_whole decodes found) rfl
  · intro place selected
    refine ⟨Bolt.objectPlace_ne_nil place, Prod.ext ?_ rfl⟩
    exact Bolt.scanIterator_from decodes found (Bolt.objectPlace_ne_nil place)
      (objectPrefix_of_selected selected)

theorem lists_postgres (library : Library μ) {server : Postgres.Server ω} {tables : Postgres.Tables ω}
    (lawful : server.Lawful) (filed : Postgres.Filed tables) :
    ∃ listed, ListsObjects μ (.postgres server) objectType tables listed := by
  have injective := Postgres.objectColumns_injective
  have sound : ((.postgres server : Engine ω).layout library).sound tables := filed
  let accept (ident : ObjectIdentifier) : Bool := decide (Selected objectType ident)
  have answered {token : GoString} {behind : List GoString → Bool}
      (resumed : Postgres.resume server token 2 = .ok behind) :
      Postgres.scanObjects server objectType token tables =
        .ok ⟨(Postgres.queried server Wire.object .zero Postgres.objectColumns tables.objects
          fun ident => accept ident && behind (Postgres.objectColumns ident)).map
            (objectRow (.postgres server)), none⟩ := by
    have selects (ident : ObjectIdentifier) :
        (decide (objectType = []) || decide (ident.objectType = objectType)) = accept ident :=
      (Bool.decide_or _ _).symm
    simp only [Postgres.scanObjects, resumed, selects]
    exact congrArg (fun rows => Except.ok (Iterator.mk rows none))
      (Postgres.rows_queried filed.objects server .zero Postgres.objectColumns
        (fun ident => accept ident && behind (Postgres.objectColumns ident))
        fun ident => Postgres.encodeToken server (Postgres.objectColumns ident))
  refine ⟨Postgres.queried server Wire.object .zero Postgres.objectColumns tables.objects accept,
    ?_, ?_, ?_, ?_⟩
  · exact Postgres.sorted_queried filed.objects lawful Postgres.length_objectColumns injective
  · intro object
    rw [Postgres.mem_queried filed.objects, decide_eq_true_iff, holdsObject_iff sound]
    rfl
  · have resumed : Postgres.resume server [] 2 = .ok fun _ => true := if_pos rfl
    have whole := answered resumed
    simp only [Bool.and_true] at whole
    exact Prod.ext whole rfl
  · intro place _
    obtain ⟨nonblank, resumed⟩ := Postgres.resume_token lawful
      (Postgres.length_objectColumns place) (by decide)
    refine ⟨nonblank, Prod.ext ((answered resumed).trans ?_) rfl⟩
    rw [Postgres.queried_from filed.objects lawful Postgres.length_objectColumns injective place]
    rfl

theorem exists_listsObjects {state : engine.State} (lawful : engine.Lawful)
    (sound : (engine.layout library).sound state) (plainTypes : engine.PlainTypes μ state)
    (plain : objectType ≠ [] → Bolt.PlainName objectType) :
    ∃ listed, engine.ListsObjects μ objectType state listed := by
  cases engine with
  | bolt => exact lists_bolt library sound plainTypes plain
  | postgres server => exact lists_postgres library lawful sound

end Engine

end Eamerald.Directory
