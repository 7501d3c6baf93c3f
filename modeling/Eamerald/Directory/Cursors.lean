import Eamerald.Bolt.TxProperties
import Eamerald.Directory.Paging
import Eamerald.Postgres.Tx

/-! The scans of both backends resume at the tokens of their rows. In BoltDB the token is
the key; in Postgres it holds the columns that the query is ordered by. -/

set_option autoImplicit false

namespace Eamerald.Bolt

open Foundation Store Directory

variable {ω μ M : Type}

def scannedRows (codec : Codec ω M) (zero : M) (bucket : Bucket ω) (keyFilter : Key) : List (Row M) :=
  (scan bucket keyFilter keyFilter).map fun entry =>
    ⟨(codec.unmarshal entry.2).toOption.getD zero, entry.1⟩

variable {codec : Codec ω M} {zero : M} {path : Path} {db : BoltDB ω} {bucket : Bucket ω} {keyFilter : Key}

theorem scanIterator_first (found : db.bucket path = some bucket) :
    scanIterator codec zero path keyFilter [] db = .ok { rows := scannedRows codec zero bucket keyFilter } := by
  simp [scanIterator, setBucket_of_some found, scannedRows]

theorem scanIterator_later (found : db.bucket path = some bucket)
    (keyed : ∀ entry ∈ bucket.toList, entry.1 ≠ []) {before after : List (Row M)} {row : Row M}
    (split : scannedRows codec zero bucket keyFilter = before ++ row :: after) : row.token ≠ [] ∧
      scanIterator codec zero path keyFilter row.token db = .ok { rows := row :: after } := by
  obtain ⟨front, rest, scanned, _, behind⟩ := List.map_eq_append_iff.mp split
  obtain ⟨entry, last, rfl, rfl, rfl⟩ := List.map_eq_cons_iff.mp behind
  have nonblank : entry.1 ≠ [] :=
    keyed entry (mem_toList_of_mem_scan (by rw [scanned]; simp))
  refine ⟨nonblank, ?_⟩
  simp only [scanIterator, setBucket_of_some found, nonblank, ↓reduceIte, scan_of_visited scanned,
    List.map_cons]

variable [Wire ω μ]

theorem resumes_scanObjects (found : db.bucket .objects = some bucket)
    (keyed : ∀ entry ∈ bucket.toList, entry.1 ≠ []) (objectType : GoString) :
    Resumes (backend : Backend μ (BoltDB ω)) db (.scanObjects objectType)
      (scannedRows Wire.object .zero bucket (if objectType ≠ [] then objectKey objectType [] else [])) where
  first := Prod.ext (scanIterator_first found) rfl
  later _ _ _ split :=
    ⟨(scanIterator_later found keyed split).1, Prod.ext (scanIterator_later found keyed split).2 rfl⟩

theorem resumes_scanRelations {direction : Direction}
    (found : db.bucket (directionPath direction) = some bucket)
    (keyed : ∀ entry ∈ bucket.toList, entry.1 ≠ []) (filter : RelationFilter) :
    Resumes (backend : Backend μ (BoltDB ω)) db (.scanRelations direction filter)
      (scannedRows Wire.relation .zero bucket (scanPrefix direction filter)) where
  first := Prod.ext (scanIterator_first found) rfl
  later _ _ _ split :=
    ⟨(scanIterator_later found keyed split).1, Prod.ext (scanIterator_later found keyed split).2 rfl⟩

end Eamerald.Bolt

namespace Eamerald.Postgres

open Foundation Store Directory

variable {ω μ : Type}

/-- What is known of the server: texts are ordered and compared by one total order, and
no token is blank. -/
structure Server.Lawful (server : Server ω) : Prop where
  transitive : Std.TransCmp server.collate
  exact : Std.LawfulEqCmp server.collate
  token : ∀ values, values ≠ [] → server.tokens.marshal values ≠ []

variable {server : Server ω}

section Order

theorem rowGE_iff (lawful : server.Lawful) {left right : List GoString} (same : left.length = right.length) :
    rowGE server left right = true ↔ (List.compareLex server.collate right left).isLE = true := by
  have := lawful.transitive
  induction left generalizing right with
  | nil =>
      cases List.length_eq_zero_iff.mp same.symm
      exact iff_of_true rfl List.isLE_compareLex_nil_left
  | cons first lefts ih =>
      cases right with
      | nil => cases same
      | cons second rights =>
          have swapped : server.collate first second = (server.collate second first).swap :=
            Std.OrientedCmp.eq_swap
          rw [List.compareLex_cons_cons, rowGE, swapped]
          cases server.collate second first with
          | lt => rfl
          | eq => exact ih (Nat.succ.inj same)
          | gt => simp

variable {α : Type} {columns : α → List GoString} {size : Nat}

theorem orderBy_perm (rows : List α) : (orderBy server columns rows).Perm rows :=
  List.perm_insertionSort _ _

variable (lawful : server.Lawful) (sized : ∀ row, (columns row).length = size)

include lawful sized

theorem columns_eq_of_rowGE {left right : α} (first : rowGE server (columns left) (columns right) = true)
    (second : rowGE server (columns right) (columns left) = true) : columns left = columns right := by
  have := lawful.transitive
  have := lawful.exact
  rw [rowGE_iff lawful (by rw [sized, sized])] at first second
  exact Std.LawfulEqCmp.eq_of_compare (Std.OrientedCmp.isLE_antisymm second first)

theorem orderBy_sorted (rows : List α) : (orderBy server columns rows).Pairwise fun left right =>
      rowGE server (columns right) (columns left) = true := by
  have := lawful.transitive
  have order (left right : α) : rowGE server (columns right) (columns left) = true ↔
      (List.compareLex server.collate (columns left) (columns right)).isLE = true :=
    rowGE_iff lawful (by rw [sized, sized])
  have total : Std.Total fun left right : α => rowGE server (columns right) (columns left) = true := by
    refine ⟨fun left right => ?_⟩
    have swapped : List.compareLex server.collate (columns right) (columns left) =
        (List.compareLex server.collate (columns left) (columns right)).swap := Std.OrientedCmp.eq_swap
    rw [order, order, swapped]
    cases List.compareLex server.collate (columns left) (columns right) <;> simp
  have transitive : IsTrans α fun left right => rowGE server (columns right) (columns left) = true := by
    refine ⟨fun left middle right first second => ?_⟩
    rw [order] at first second ⊢
    exact Std.TransCmp.isLE_trans first second
  exact List.pairwise_insertionSort _ rows

theorem orderBy_resumes {rows : List α} (distinct : (rows.map columns).Nodup) {before after : List α}
    {row : α} (split : orderBy server columns rows = before ++ row :: after) :
    orderBy server columns (rows.filter fun other => rowGE server (columns other) (columns row)) =
      row :: after := by
  have ordered := orderBy_sorted lawful sized rows
  have shuffled : (orderBy server columns rows).Perm rows := orderBy_perm rows
  have apart := (shuffled.map columns).nodup_iff.mpr distinct
  have listed (other : α) (member : other ∈ before ++ row :: after) : other ∈ rows :=
    shuffled.mem_iff.mp (split ▸ member)
  rw [split] at ordered apart
  have sorted := ordered
  rw [List.pairwise_append, List.pairwise_cons] at ordered
  obtain ⟨_, ⟨later, _⟩, earlier⟩ := ordered
  have dropped : (before.filter fun other => rowGE server (columns other) (columns row)) = [] := by
    rw [List.filter_eq_nil_iff]
    intro other member behind
    have same := columns_eq_of_rowGE lawful sized behind (earlier other member row List.mem_cons_self)
    rw [List.map_append, List.nodup_append] at apart
    exact apart.2.2 _ (List.mem_map_of_mem member) _ (List.mem_map_of_mem List.mem_cons_self) same
  have kept : ((row :: after).filter fun other => rowGE server (columns other) (columns row)) =
      row :: after := by
    rw [List.filter_eq_self]
    intro other member
    rcases List.mem_cons.mp member with rfl | member
    · have := lawful.transitive
      rw [rowGE_iff lawful rfl]
      exact Std.ReflCmp.isLE_rfl
    · exact later other member
  have same : (rows.filter fun other => rowGE server (columns other) (columns row)).Perm (row :: after) := by
    have filtered := shuffled.symm.filter fun other => rowGE server (columns other) (columns row)
    rwa [split, List.filter_append, dropped, kept, List.nil_append] at filtered
  refine List.Perm.eq_of_pairwise ?_ (orderBy_sorted lawful sized _)
    (List.pairwise_append.mp sorted).2.1 ((orderBy_perm _).trans same)
  intro left right leftMember rightMember leftFirst rightFirst
  have leftListed : left ∈ rows := List.mem_of_mem_filter ((orderBy_perm _).mem_iff.mp leftMember)
  exact List.inj_on_of_nodup_map distinct leftListed
    (listed right (List.mem_append_right _ rightMember))
    (columns_eq_of_rowGE lawful sized rightFirst leftFirst)

end Order

section Queries

variable {κ M : Type} {codec : Codec ω M} {zero : M} {columns : κ → List GoString} {size : Nat}

def queriedRows (server : Server ω) (codec : Codec ω M) (zero : M) (columns : κ → List GoString)
    (rows : List (κ × ω)) : List (Row M) :=
  (orderBy server (fun row => columns row.1) rows).map fun row =>
    ⟨(codec.unmarshal row.2).toOption.getD zero, encodeToken server (columns row.1)⟩

theorem resume_token (lawful : server.Lawful) {values : List GoString} (sized : values.length = size)
    (some_columns : size ≠ 0) : encodeToken server values ≠ [] ∧
      resume server (encodeToken server values) size = .ok fun row => rowGE server row values := by
  have nonblank : encodeToken server values ≠ [] :=
    lawful.token values fun empty => some_columns (by rw [← sized, empty]; rfl)
  refine ⟨nonblank, ?_⟩
  have decoded : server.tokens.unmarshal (encodeToken server values) = .ok values :=
    server.tokens.unmarshal_marshal values
  simp [resume, nonblank, decodeToken, decoded, sized]

theorem queriedRows_later (lawful : server.Lawful) (sized : ∀ key, (columns key).length = size)
    (some_columns : size ≠ 0) {rows : List (κ × ω)} (distinct : (rows.map fun row => columns row.1).Nodup)
    {before after : List (Row M)} {row : Row M}
    (split : queriedRows server codec zero columns rows = before ++ row :: after) : ∃ values, row.token ≠ [] ∧
      resume server row.token size = .ok (fun other => rowGE server other values) ∧
      queriedRows server codec zero columns
        (rows.filter fun other => rowGE server (columns other.1) values) = row :: after := by
  obtain ⟨front, rest, ordered, _, behind⟩ := List.map_eq_append_iff.mp split
  obtain ⟨found, last, rfl, rfl, rfl⟩ := List.map_eq_cons_iff.mp behind
  obtain ⟨nonblank, resumed⟩ := resume_token lawful (sized found.1) some_columns
  refine ⟨columns found.1, nonblank, resumed, ?_⟩
  have continued : orderBy server (fun row => columns row.1)
      (rows.filter fun other => rowGE server (columns other.1) (columns found.1)) = found :: last :=
    orderBy_resumes lawful (fun row : κ × ω => sized row.1) distinct ordered
  rw [queriedRows, continued, List.map_cons]

variable [Wire ω μ] (tables : Tables ω)

theorem distinct_columns [Ord κ] [Std.TransOrd κ] [Std.LawfulEqOrd κ] (map : Std.ExtTreeMap κ ω)
    (injective : Function.Injective columns) (accept : κ × ω → Bool) :
    ((map.toList.filter accept).map fun row => columns row.1).Nodup := by
  have keys : (map.toList.map Prod.fst).Nodup := by
    rw [Std.ExtTreeMap.map_fst_toList_eq_keys]
    exact Std.ExtTreeMap.nodup_keys
  have all : (map.toList.map fun row => columns row.1).Nodup := by
    have mapped := keys.map injective
    rwa [List.map_map] at mapped
  exact all.sublist (List.filter_sublist.map _)

theorem length_objectColumns (ident : ObjectIdentifier) : (objectColumns ident).length = 2 := rfl

theorem resumes_scanObjects (lawful : server.Lawful) (objectType : GoString) :
    Resumes (backend server : Backend μ (Tables ω)) tables (.scanObjects objectType)
      (queriedRows server Wire.object .zero objectColumns (tables.objects.toList.filter fun row =>
        objectType = [] || row.1.objectType = objectType)) where
  first := by
    refine Prod.ext ?_ rfl
    change scanObjects server objectType [] tables = _
    simp [scanObjects, resume, queriedRows]
  later before row after split := by
    obtain ⟨values, nonblank, resumed, rows⟩ := queriedRows_later lawful length_objectColumns
      (by decide) (distinct_columns tables.objects objectColumns_injective _) split
    refine ⟨nonblank, Prod.ext ?_ rfl⟩
    change scanObjects server objectType row.token tables = _
    rw [List.filter_filter] at rows
    simp only [scanObjects, resumed, ← rows, queriedRows, Bool.and_comm]

def orderedColumns (direction : Direction) (ident : RelationIdentifier) : List GoString :=
  (orderCols direction).map (column ident)

theorem orderedColumns_injective (direction : Direction) : Function.Injective (orderedColumns direction) := by
  intro left right same
  cases direction with
  | byObject => exact relationColumns_injective same
  | bySubject =>
      simp only [orderedColumns, orderCols, subjectOrderCols, column, List.map_cons, List.map_nil,
        List.cons.injEq, and_true] at same
      obtain ⟨subjectType, subjectId, relation, objectType, objectId, subjectRelation⟩ := same
      exact RelationIdentifier.ext objectType objectId relation subjectType subjectId subjectRelation

theorem resumes_scanRelations (lawful : server.Lawful) (direction : Direction) (filter : RelationFilter) :
    Resumes (backend server : Backend μ (Tables ω)) tables (.scanRelations direction filter)
      (queriedRows server Wire.relation .zero (orderedColumns direction)
        (tables.relations.toList.filter fun row => meetsConditions (relationConditions filter) row.1)) where
  first := by
    refine Prod.ext ?_ rfl
    change scanRelations server direction filter [] tables = _
    simp only [scanRelations, resume, ↓reduceIte, Bool.and_true]
    rfl
  later before row after split := by
    have sized (ident : RelationIdentifier) :
        (orderedColumns direction ident).length = (orderCols direction).length := List.length_map _
    have some_columns : (orderCols direction).length ≠ 0 := by
      cases direction <;> decide
    obtain ⟨values, nonblank, resumed, rows⟩ := queriedRows_later lawful sized some_columns
      (distinct_columns tables.relations (orderedColumns_injective direction) _) split
    refine ⟨nonblank, Prod.ext ?_ rfl⟩
    change scanRelations server direction filter row.token tables = _
    rw [List.filter_filter] at rows
    simp only [scanRelations, resumed, ← rows, queriedRows, Bool.and_comm]
    rfl

end Queries

end Eamerald.Postgres
