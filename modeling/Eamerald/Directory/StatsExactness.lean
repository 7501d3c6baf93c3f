import Eamerald.Directory.RoundTrip
import Eamerald.Directory.StatsProperties
import Eamerald.Foundation.Counting

/-! The statistics are exact. A map that is filled entry by entry holds under each name what
its rows alone make of a fresh entry, so that each level is counted over the rows of the entry
above it. -/

set_option autoImplicit false

namespace Eamerald.Directory

open Foundation Store

variable {objects : List Object} {name : GoString}

section Groups

variable {α β : Type}

def under (key : α → GoString) (name : GoString) (rows : List α) : List α :=
  rows.filter fun row => decide (key row = name)

theorem length_under_le (key : α → GoString) (name : GoString) (rows : List α) :
    (under key name rows).length ≤ rows.length :=
  List.length_filter_le _ _

theorem under_ne_nil {key : α → GoString} {rows : List α} :
    under key name rows ≠ [] ↔ ∃ row ∈ rows, key row = name := by
  simp [under, List.filter_eq_nil_iff]

theorem under_cons (key : α → GoString) (name : GoString) (row : α) (rows : List α) :
    under key name (row :: rows) =
      if key row = name then row :: under key name rows else under key name rows := by
  simp [under, List.filter_cons]

def fill (fresh : β) (key : α → GoString) (change : α → β → β) (rows : List α) (map : Named β) :
    Named β :=
  rows.foldl (fun map row => amend fresh map (key row) (change row)) map

variable (fresh : β) (key : α → GoString) (change : α → β → β) (rows : List α) (map : Named β)
  (name : GoString)

theorem getElem?_fill : (fill fresh key change rows map)[name]? = if under key name rows = [] then map[name]?
      else some ((under key name rows).foldl (fun entry row => change row entry) (map[name]?.getD fresh)) := by
  induction rows generalizing map with
  | nil => simp [fill, under]
  | cons row rows ih =>
      have step := ih (amend fresh map (key row) (change row))
      rw [fill, List.foldl_cons, ← fill, step, amend, Std.ExtTreeMap.getElem?_insert, under_cons]
      by_cases here : key row = name
      · subst here
        cases under key (key row) rows <;> simp
      · simp [here]

theorem mem_fill : name ∈ fill fresh key change rows map ↔ (∃ row ∈ rows, key row = name) ∨ name ∈ map := by
  rw [← Std.ExtTreeMap.isSome_getElem?_iff_mem, getElem?_fill, ← under_ne_nil]
  split
  · next empty => simp [empty]
  · next filled => simp [filled]

theorem getD_fill : (fill fresh key change rows map)[name]?.getD fresh =
      (under key name rows).foldl (fun entry row => change row entry) (map[name]?.getD fresh) := by
  rw [getElem?_fill]
  split
  · next empty => rw [empty, List.foldl_nil]
  · rfl

theorem eq_of_getElem?_fill {entry : β} (found : (fill fresh key change rows ∅)[name]? = some entry) :
    entry = (under key name rows).foldl (fun entry row => change row entry) fresh := by
  have read := getD_fill fresh key change rows ∅ name
  rw [found] at read
  exact read

theorem sum_entries {map : Named β} (size : β → Int32) (kind : α → Bool)
    (sizes : ∀ name entry, map[name]? = some entry →
      (size entry).toInt = (rows.countP fun row => kind row && decide (key row = name)))
    (listed : ∀ row ∈ rows, kind row = true → key row ∈ map) :
    (map.toList.map fun entry => (size entry.2).toInt).sum = rows.countP kind := by
  have counted : (map.toList.map fun entry => (size entry.2).toInt) =
      (map.keys.map fun name => rows.countP fun row => kind row && decide (key row = name)).map
        Int.ofNat := by
    rw [← Std.ExtTreeMap.map_fst_toList_eq_keys, List.map_map, List.map_map]
    refine List.map_congr_left fun entry member => ?_
    exact sizes entry.1 entry.2 (Std.ExtTreeMap.mem_toList_iff_getElem?_eq_some.mp member)
  have total : (map.keys.map fun name =>
      rows.countP fun row => kind row && decide (key row = name)).sum = rows.countP kind :=
    sum_countP_fibers key Std.ExtTreeMap.nodup_keys fun row member here =>
      Std.ExtTreeMap.mem_keys.mpr (listed row member here)
  rw [counted, ← total]
  exact (Nat.cast_list_sum _).symm

end Groups

section Steps

/-- What a relation changes in the entry of its subject type. -/
def SubjectTypeStats.inc (relation : Relation) (entry : SubjectTypeStats) : SubjectTypeStats :=
  { entry with
    count := entry.count + 1
    subjectRelations :=
      if relation.subjectRelation ≠ [] then
        amend 0 entry.subjectRelations relation.subjectRelation (· + 1)
      else entry.subjectRelations }

def RelationStats.inc (relation : Relation) (entry : RelationStats) : RelationStats :=
  { entry with
    count := entry.count + 1
    subjectTypes := amend {} entry.subjectTypes (countedSubjectType relation)
      (SubjectTypeStats.inc relation) }

def ObjectTypeStats.inc (relation : Relation) (entry : ObjectTypeStats) : ObjectTypeStats :=
  { entry with
    count := entry.count + 1
    relations := amend {} entry.relations relation.relation (RelationStats.inc relation) }

def ObjectTypeStats.incObject (_ : Object) (entry : ObjectTypeStats) : ObjectTypeStats :=
  { entry with objCount := entry.objCount + 1 }

theorem tally_eq_fill (objects : List Object) (relations : List Relation) : tally objects relations =
      fill {} (·.objectType) ObjectTypeStats.inc relations
        (fill {} (·.type) ObjectTypeStats.incObject objects ∅) :=
  rfl

theorem toInt_length {α : Type} {rows : List α} (small : rows.length < 2 ^ 31) :
    (Int32.ofNat rows.length).toInt = rows.length :=
  Int32.toInt_ofNat_of_lt small

theorem foldl_count {σ α : Type} {step : σ → α → σ} (read : σ → Int32)
    (raised : ∀ state row, read (step state row) = read state + 1) (rows : List α) {state : σ}
    (zero : read state = 0) : read (rows.foldl step state) = Int32.ofNat rows.length := by
  have total := foldl_counter read (fun _ => true) (fun state row => raised state row) rows state
  rw [total, zero, Int32.zero_add, List.countP_true]

end Steps

section Exactness

/-- An entry counts these relations in all, and by name in the entries below, which add up. -/
structure Level {β : Type} (number : Int32) (below : Named β) (size : β → Int32)
    (key : Relation → GoString) (Below : β → List Relation → Prop) (rows : List Relation) :
    Prop where
  count : number.toInt = rows.length
  listed : ∀ name, name ∈ below ↔ ∃ row ∈ rows, key row = name
  counts : ∀ name (entry : β), below[name]? = some entry → Below entry (under key name rows)
  sum : number.toInt = (below.toList.map fun entry => (size entry.2).toInt).sum

/-- Relations without a subject relation are what the entries below leave of the count. -/
structure SubjectTypeStats.Counts (entry : SubjectTypeStats) (rows : List Relation) : Prop where
  count : entry.count.toInt = rows.length
  listed : ∀ name, name ∈ entry.subjectRelations ↔
    name ≠ [] ∧ ∃ row ∈ rows, row.subjectRelation = name
  counts : ∀ name (count : Int32), entry.subjectRelations[name]? = some count →
    count.toInt = (under (·.subjectRelation) name rows).length
  remainder : entry.count.toInt - (entry.subjectRelations.toList.map (·.2.toInt)).sum =
    (under (·.subjectRelation) [] rows).length

def RelationStats.Counts (entry : RelationStats) (rows : List Relation) : Prop :=
  Level entry.count entry.subjectTypes SubjectTypeStats.count countedSubjectType
    SubjectTypeStats.Counts rows

def ObjectTypeStats.Counts (entry : ObjectTypeStats) (objects : List Object)
    (rows : List Relation) : Prop :=
  entry.objCount.toInt = objects.length ∧
    Level entry.count entry.relations RelationStats.count (·.relation) RelationStats.Counts rows

structure Stats.Counts (stats : Stats) (objects : List Object) (rows : List Relation) : Prop where
  listed : ∀ name, name ∈ stats ↔
    (∃ object ∈ objects, object.type = name) ∨ ∃ row ∈ rows, row.objectType = name
  counts : ∀ name (entry : ObjectTypeStats), stats[name]? = some entry →
    entry.Counts (under (·.type) name objects) (under (·.objectType) name rows)

section Levels

variable {ε β : Type} (change : Relation → ε → ε) (count : ε → Int32) (below : ε → Named β)
  {size : β → Int32} {key : Relation → GoString} {Below : β → List Relation → Prop} {fresh : β}
  {grow : Relation → β → β}

/-- An entry that every row raises is exact if the entries below are. -/
theorem level_of_below (raised : ∀ row entry, count (change row entry) = count entry + 1)
    (entered : ∀ row entry, below (change row entry) = amend fresh (below entry) (key row) (grow row))
    (sized : ∀ {entry rows}, Below entry rows → (size entry).toInt = rows.length)
    (exact : ∀ {rows : List Relation}, rows.length < 2 ^ 31 →
      Below (rows.foldl (fun entry row => grow row entry) fresh) rows)
    {start : ε} (zero : count start = 0) (empty : below start = ∅) {rows : List Relation}
    (small : rows.length < 2 ^ 31) :
    let entry := rows.foldl (fun entry row => change row entry) start
    Level (count entry) (below entry) size key Below rows := by
  intro entry
  have total : (count entry).toInt = rows.length := by
    rw [foldl_count count (fun _ _ => raised _ _) rows zero, toInt_length small]
  have filled : below entry = fill fresh key grow rows ∅ := by
    rw [← empty]
    exact (List.foldl_hom below fun _ _ => (entered _ _).symm).symm
  have listed (name : GoString) : name ∈ below entry ↔ ∃ row ∈ rows, key row = name := by
    rw [filled, mem_fill]
    simp
  have counts (name : GoString) (found : β) (here : (below entry)[name]? = some found) :
      Below found (under key name rows) := by
    rw [filled] at here
    rw [eq_of_getElem?_fill _ _ _ _ _ here]
    exact exact (Nat.lt_of_le_of_lt (length_under_le _ _ _) small)
  refine ⟨total, listed, counts, ?_⟩
  have summed : ((below entry).toList.map fun entry => (size entry.2).toInt).sum =
      rows.countP fun _ => true := by
    refine sum_entries key rows size _ ?_ ?_
    · intro name found here
      rw [sized (counts name found here), under, ← List.countP_eq_length_filter]
      simp
    · intro row member _
      exact (listed _).mpr ⟨row, member, rfl⟩
  rw [total, summed, List.countP_true]

end Levels

variable {rows : List Relation}

def subjectTypeOf (rows : List Relation) : SubjectTypeStats :=
  rows.foldl (fun entry row => SubjectTypeStats.inc row entry) {}

theorem count_subjectTypeOf (small : rows.length < 2 ^ 31) :
    (subjectTypeOf rows).count.toInt = rows.length := by
  rw [subjectTypeOf, foldl_count SubjectTypeStats.count (fun _ _ => rfl) rows rfl,
    toInt_length small]

theorem subjectRelations_subjectTypeOf : (subjectTypeOf rows).subjectRelations =
      fill 0 (·.subjectRelation) (fun _ count => count + 1)
        (rows.filter fun row => decide (row.subjectRelation ≠ [])) ∅ := by
  rw [fill, List.foldl_filter, subjectTypeOf]
  refine (List.foldl_hom SubjectTypeStats.subjectRelations fun entry row => ?_).symm
  simp [SubjectTypeStats.inc]

theorem listed_subjectTypeOf (name : GoString) : name ∈ (subjectTypeOf rows).subjectRelations ↔
      name ≠ [] ∧ ∃ row ∈ rows, row.subjectRelation = name := by
  rw [subjectRelations_subjectTypeOf, mem_fill]
  simp only [List.mem_filter, decide_eq_true_eq, Std.ExtTreeMap.not_mem_empty, or_false]
  constructor
  · rintro ⟨row, ⟨member, named⟩, rfl⟩
    exact ⟨named, row, member, rfl⟩
  · rintro ⟨named, row, member, rfl⟩
    exact ⟨row, ⟨member, named⟩, rfl⟩

theorem named_subjectTypeOf {count : Int32}
    (found : (subjectTypeOf rows).subjectRelations[name]? = some count) : name ≠ [] := by
  have member : name ∈ (subjectTypeOf rows).subjectRelations := by
    rw [← Std.ExtTreeMap.isSome_getElem?_iff_mem, found]
    rfl
  exact ((listed_subjectTypeOf name).mp member).1

theorem counts_subjectTypeOf (small : rows.length < 2 ^ 31) {count : Int32}
    (found : (subjectTypeOf rows).subjectRelations[name]? = some count) :
    count.toInt = (under (·.subjectRelation) name rows).length := by
  have named := named_subjectTypeOf found
  have same : under (·.subjectRelation) name
      (rows.filter fun row => decide (row.subjectRelation ≠ [])) =
        under (·.subjectRelation) name rows := by
    rw [under, List.filter_filter, under]
    refine List.filter_congr fun row _ => ?_
    grind
  rw [subjectRelations_subjectTypeOf] at found
  have total : (under (·.subjectRelation) name rows).foldl (fun count _ => count + 1) (0 : Int32) =
      Int32.ofNat (under (·.subjectRelation) name rows).length :=
    foldl_count id (fun _ _ => rfl) _ rfl
  rw [eq_of_getElem?_fill _ _ _ _ _ found, same]
  exact (congrArg Int32.toInt total).trans
    (toInt_length (Nat.lt_of_le_of_lt (length_under_le _ _ _) small))

theorem counts_subjectType (small : rows.length < 2 ^ 31) : (subjectTypeOf rows).Counts rows := by
  refine ⟨count_subjectTypeOf small, listed_subjectTypeOf,
    fun _ _ => counts_subjectTypeOf small, ?_⟩
  have summed : ((subjectTypeOf rows).subjectRelations.toList.map (·.2.toInt)).sum =
      rows.countP fun row => decide (row.subjectRelation ≠ []) := by
    refine sum_entries (·.subjectRelation) rows id _ ?_ ?_
    · intro name count found
      have named := named_subjectTypeOf found
      refine (counts_subjectTypeOf small found).trans (congrArg Nat.cast ?_)
      rw [under, ← List.countP_eq_length_filter]
      refine List.countP_congr fun row _ => ?_
      grind
    · intro row member named
      exact (listed_subjectTypeOf _).mpr ⟨of_decide_eq_true named, row, member, rfl⟩
  have split := rows.length_eq_countP_add_countP fun row => decide (row.subjectRelation ≠ [])
  rw [summed, count_subjectTypeOf small, under, ← List.countP_eq_length_filter, split]
  simp

theorem counts_relation (small : rows.length < 2 ^ 31) :
    (rows.foldl (fun entry row => RelationStats.inc row entry) {}).Counts rows :=
  level_of_below RelationStats.inc RelationStats.count RelationStats.subjectTypes (fun _ _ => rfl)
    (fun _ _ => rfl) (fun below => below.count) counts_subjectType rfl rfl small

theorem foldl_incObject (objects : List Object) :
    objects.foldl (fun entry object => ObjectTypeStats.incObject object entry) {} =
      { objCount := Int32.ofNat objects.length } := by
  induction objects using List.reverseRecOn with
  | nil => rfl
  | append_singleton objects object ih =>
      rw [List.foldl_concat, ih, List.length_append, Int32.ofNat_add]
      rfl

theorem objCount_foldl_inc (entry : ObjectTypeStats) :
    (rows.foldl (fun entry row => ObjectTypeStats.inc row entry) entry).objCount = entry.objCount := by
  induction rows generalizing entry with
  | nil => rfl
  | cons row rows ih => exact ih _

theorem counts_objectType (few : objects.length < 2 ^ 31) (small : rows.length < 2 ^ 31) :
    (rows.foldl (fun entry row => ObjectTypeStats.inc row entry)
      (objects.foldl (fun entry object => ObjectTypeStats.incObject object entry) {})).Counts objects rows := by
  rw [foldl_incObject]
  constructor
  · rw [objCount_foldl_inc, toInt_length few]
  · exact level_of_below ObjectTypeStats.inc ObjectTypeStats.count ObjectTypeStats.relations
      (fun _ _ => rfl) (fun _ _ => rfl) (fun below => below.count) counts_relation rfl rfl small

theorem counts_tally (few : objects.length < 2 ^ 31)
    (small : rows.length < 2 ^ 31) : Stats.Counts (tally objects rows) objects rows := by
  rw [tally_eq_fill]
  constructor
  · intro name
    rw [mem_fill, mem_fill]
    simp [or_comm]
  · intro name entry found
    have fewHere := Nat.lt_of_le_of_lt (length_under_le (·.type) name objects) few
    have smallHere := Nat.lt_of_le_of_lt (length_under_le (·.objectType) name rows) small
    have read := getD_fill {} (·.objectType) ObjectTypeStats.inc rows
      (fill {} (·.type) ObjectTypeStats.incObject objects ∅) name
    rw [found, getD_fill] at read
    rw [show entry = _ from read]
    exact counts_objectType fewHere smallHere

end Exactness

section Stores

variable {ω μ : Type} [Wire ω μ]

/-- The two scans of the statistics list these rows, in this order. -/
structure Scans {σ : Type} (backend : Backend μ σ) (state : σ) (objects : List Object)
    (relations : List Relation) : Prop where
  objects : ∃ iterator, backend.exec (.scanObjects [] []) state = (.ok iterator, state) ∧
    iterator.values = objects
  relations : ∃ iterator, backend.exec (.scanRelations .byObject {} []) state =
    (.ok iterator, state) ∧ iterator.values = relations

structure Engine.Lists (library : Library μ) (engine : Engine ω) (state : engine.State)
    (objects : List Object) (relations : List Relation) : Prop where
  distinct : ((entriesOf objects relations).map (engine.layout library).place).Nodup
  stored : ∀ entry, entry ∈ entriesOf objects relations ↔
    (engine.layout library).entry state ((engine.layout library).place entry) = some entry

theorem run_calculateStats_of_scans {σ : Type} {backend : Backend μ σ} {state : σ} {relations : List Relation}
    (scans : Scans backend state objects relations) :
    (calculateStats (μ := μ)).run backend state = (.ok (tally objects relations), state) := by
  obtain ⟨_, scannedObjects, rfl⟩ := scans.objects
  obtain ⟨_, scannedRelations, rfl⟩ := scans.relations
  simp only [calculateStats, countObjects, countRelations, Program.bind_eq, Program.run_bind,
    Program.run_lift, scannedObjects, Program.run_pure, scannedRelations]
  rfl

theorem Engine.exists_lists (library : Library μ) (engine : Engine ω) {state : engine.State}
    (sound : (engine.layout library).sound state) :
    ∃ objects relations, engine.Lists library state objects relations ∧
      Scans (engine.backend (μ := μ)) state objects relations := by
  obtain ⟨objects, scannedObjects, _⟩ := (engine.layout library).objects.scans sound
  obtain ⟨relations, scannedRelations, _⟩ := (engine.layout library).relations.scans sound
  obtain ⟨distinct, listed⟩ := (engine.layout library).scans_all sound scannedObjects scannedRelations
  exact ⟨objects.values, relations.values, ⟨distinct, listed⟩,
    ⟨objects, scannedObjects, rfl⟩, ⟨relations, scannedRelations, rfl⟩⟩

/-- The statistics of fewer than 2^31 rows are exact at all levels, whatever the order in which
the rows are scanned, and the scans of either engine list each stored row once. -/
theorem calculateStats_exact (library : Library μ) :
    (∀ (σ : Type) (backend : Backend μ σ) (state : σ) (objects : List Object)
      (relations : List Relation), Scans backend state objects relations →
      objects.length + relations.length < 2 ^ 31 →
        ∃ stats, (calculateStats (μ := μ)).run backend state = (.ok stats, state) ∧
          Stats.Counts stats objects relations) ∧
    ∀ (engine : Engine ω) (state : engine.State), (engine.layout library).sound state →
      ∃ objects relations, engine.Lists library state objects relations ∧
        Scans (engine.backend (μ := μ)) state objects relations := by
  constructor
  · intro σ backend state objects relations scans small
    refine ⟨_, run_calculateStats_of_scans scans, counts_tally ?_ ?_⟩
    · omega
    · omega
  · intro engine state sound
    exact engine.exists_lists library sound

theorem length_of_scanned {σ α : Type} {backend : Backend μ σ} {state : σ} {scan : TxOp μ (Iterator α)}
    {rows : List α} {number : Nat}
    (scanned : ∃ iterator, backend.exec scan state = (.ok iterator, state) ∧ iterator.values = rows)
    (counted : (backend.exec scan state).1.toOption.map (·.values.length) = some number) :
    rows.length = number := by
  obtain ⟨iterator, answered, rfl⟩ := scanned
  rw [answered] at counted
  exact Option.some.inj counted

theorem shared_document_counted :
    let state := boltEngine.reached Simple.library sharedDocument
    ∃ objects relations stats,
      boltEngine.Lists Simple.library state objects relations ∧
        objects.length = 1 ∧ relations.length = 1 ∧
        (calculateStats (μ := Simple.Model)).run boltEngine.backend state = (.ok stats, state) ∧
        Stats.Counts stats objects relations := by
  intro state
  have sound : (boltEngine.layout Simple.library).sound state :=
    boltEngine.sound_reached sharedDocument
  obtain ⟨objects, relations, lists, scans⟩ :=
    (calculateStats_exact Simple.library).2 boltEngine state sound
  have object : objects.length = 1 := length_of_scanned scans.objects (by decide +kernel)
  have relation : relations.length = 1 := length_of_scanned scans.relations (by decide +kernel)
  obtain ⟨stats, ran, counts⟩ := (calculateStats_exact (ω := Blob Simple.Model) Simple.library).1 _
    boltEngine.backend state objects relations scans (by omega)
  exact ⟨objects, relations, stats, lists, object, relation, ran, counts⟩

end Stores

end Eamerald.Directory
