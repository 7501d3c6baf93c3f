import Eamerald.Datasync.SyncProperties
import Eamerald.Directory.Layouts
import Eamerald.Directory.Simple

/-! What the difference stage deletes. It relies on the filter, whose size is taken
from the last run, and so an exported row can be deleted again when the export has
more rows than the filter has room for. -/

set_option autoImplicit false

namespace Eamerald.Datasync

open Foundation Store Directory

section Filters

variable {φ : Type} {filters : FilterLibrary φ}

/-- What is known of the filter: it finds every key whose insertion it accepted, and accepts
as many as it was made for. -/
structure FilterLibrary.Lawful (filters : FilterLibrary φ) : Prop where
  finds : ∀ size before key after,
    (filters.insert key (filters.insertAll before (filters.newFilter size))).1 = true →
      filters.lookup key (filters.insertAll (before ++ key :: after) (filters.newFilter size)) = true
  accepts : ∀ size before key, before.length < size.toNat →
    (filters.insert key (filters.insertAll before (filters.newFilter size))).1 = true

theorem FilterLibrary.Lawful.lookup_of_mem (lawful : filters.Lawful) {size : UInt64}
    {keys : List GoString} (room : keys.length ≤ size.toNat) {key : GoString} (member : key ∈ keys) :
    filters.lookup key (filters.insertAll keys (filters.newFilter size)) = true := by
  obtain ⟨before, after, rfl⟩ := List.append_of_mem member
  refine lawful.finds size before key after (lawful.accepts size before key ?_)
  rw [List.length_append, List.length_cons] at room
  omega

section Exact

theorem exact_insertAll (room : Nat) (kept keys : List GoString) :
    FilterLibrary.exact.insertAll keys (room, kept) =
      (room, (keys.take (room - kept.length)).reverse ++ kept) := by
  induction keys generalizing kept with
  | nil => simp [FilterLibrary.insertAll]
  | cons key rest ih =>
      have continued : FilterLibrary.exact.insertAll (key :: rest) (room, kept) =
          FilterLibrary.exact.insertAll rest (FilterLibrary.exact.insert key (room, kept)).2 := rfl
      rw [continued]
      by_cases free : kept.length < room
      · have more : room - kept.length = room - (key :: kept).length + 1 := by
          rw [List.length_cons]
          omega
        simp only [FilterLibrary.exact, free, ↓reduceIte] at ih ⊢
        rw [ih, more, List.take_succ_cons]
        simp
      · have full : room - kept.length = 0 := by omega
        simp only [FilterLibrary.exact, free, ↓reduceIte] at ih ⊢
        rw [ih, full]
        simp

theorem exact_insertAll_new (size : UInt64) (keys : List GoString) :
    FilterLibrary.exact.insertAll keys (FilterLibrary.exact.newFilter size) =
      (size.toNat, (keys.take size.toNat).reverse) := by
  change FilterLibrary.exact.insertAll keys (size.toNat, []) = _
  simpa using exact_insertAll size.toNat [] keys

theorem exact_lawful : FilterLibrary.exact.Lawful where
  finds size before key after inserted := by
    rw [exact_insertAll_new] at inserted ⊢
    have room : before.length < size.toNat := by
      by_contra full
      simp [FilterLibrary.exact, Nat.min_eq_left (not_lt.mp full)] at inserted
    have some_left : size.toNat - before.length = size.toNat - before.length - 1 + 1 := by omega
    simp only [FilterLibrary.exact, List.contains_eq_mem, List.mem_reverse, decide_eq_true_eq]
    rw [List.take_append, some_left, List.take_succ_cons]
    simp
  accepts size before key room := by
    rw [exact_insertAll_new]
    simp [FilterLibrary.exact, room, Nat.min_eq_right room.le]

end Exact

variable {μ : Type}

theorem produce_filter (messages : List (Incoming μ)) (filter : Option φ) :
    (produce filters messages filter).2 =
      filter.map (filters.insertAll ((produce filters messages filter).1.map (·.row.key))) := by
  induction messages generalizing filter with
  | nil => cases filter <;> rfl
  | cons message rest ih =>
      cases message with
      | unknown => exact ih filter
      | row applied =>
          rw [produce, ih]
          cases filter <;> rfl

theorem produce_rows (rows : List (Applied μ)) (filter : Option φ) :
    (produce filters (rows.map .row) filter).1 = rows := by
  induction rows generalizing filter with
  | nil => rfl
  | cons applied rest ih => exact congrArg (applied :: ·) (ih _)

end Filters

section Exports

variable {ω μ φ : Type} (filters : FilterLibrary φ) (run : Run μ) (edge : Edge ω)

def Run.knows (key : GoString) : Bool :=
  (run.produced filters edge.file).2.any (filters.lookup key)

variable {filters run edge}

theorem produced_filter (diffs : run.mode.has .diff = true) :
    (run.produced filters edge.file).2 = some (filters.insertAll ((run.exported filters edge).map entryKey)
      (filters.newFilter (getWatermark edge.file).getFilterSize)) := by
  have keys : (run.produced filters edge.file).1.map (·.row.key) =
      (run.exported filters edge).map entryKey := by
    simp [Run.exported, List.map_map, Function.comp_def, Row.key_eq]
  rw [← keys]
  unfold Run.produced
  rw [produce_filter, initialFilter, if_pos diffs]
  rfl

theorem knows_of_room (lawful : filters.Lawful) (diffs : run.mode.has .diff = true)
    (room : (run.exported filters edge).length ≤ (getWatermark edge.file).getFilterSize.toNat)
    {entry : Entry} (member : entry ∈ run.exported filters edge) :
    run.knows filters edge (entryKey entry) = true := by
  rw [Run.knows, produced_filter diffs]
  refine lawful.lookup_of_mem ?_ (List.mem_map_of_mem member)
  rw [List.length_map]
  exact room

end Exports

section Runs

variable {ω μ φ : Type} [Wire ω μ] (library : Library μ) (filters : FilterLibrary φ) (run : Run μ)
  (edge : Edge ω)

/-- A row of the export that was stored with its content, or found so. -/
def Run.Live (entry stored : Entry) : Prop :=
  entry ∈ run.exported filters edge ∧
    view Bolt.backend entry.read (run.subscribed library filters edge) = .ok stored ∧
    stored.bare = entry.bare

variable {library filters run edge} {after : Edge ω}

/-- Nothing fails outside the store: the export ends normally, and transactions and the
watermark file are written. -/
structure Run.Clean (run : Run μ) (file : WatermarkFile) : Prop where
  subscriberTx : run.subscriberTx = {}
  ending : (run.stream file).ending = .ok ()
  diffTx : run.diffTx = {}
  fileWrite : run.fileWrite = .written

theorem syncDirectory_clean (filed : Bolt.Filed edge.db) (clean : run.Clean edge.file) :
    ∃ after, syncDirectory library filters run edge = (.ok (), after) := by
  have subscribed : subscriberStage library run (run.produced filters edge.file).1 edge.db = _ :=
    subscriberStage_clean clean.subscriberTx _ _
  have staged (db : Bolt.BoltDB ω) (filed : Bolt.Filed db) : ∃ swept,
      (if run.mode.has .diff then diffStage library filters run (run.produced filters edge.file).2 db
        else (.ok ⟨⟩, db)) = (.ok ⟨⟩, swept) := by
    split
    · rename_i diffs
      rw [produced_filter diffs, diffStage, clean.diffTx]
      obtain ⟨swept, performed, _⟩ := run_diff (Bolt.layout library) run.diffModel
        (fun key => filters.lookup key _) filed
      exact ⟨swept, withTx_clean performed⟩
    · exact ⟨db, rfl⟩
  obtain ⟨swept, performed⟩ := staged _ ((Bolt.layout library).sound_run
    (subscriber library (run.produced filters edge.file).1) filed)
  refine ⟨(syncDirectory library filters run edge).2, Prod.ext ?_ rfl⟩
  simp only [syncDirectory, subscribed, clean.ending, finishSync, performed, clean.fileWrite]
  rfl

theorem entry_of_diff (filed : Bolt.Filed edge.db) (diffs : run.mode.has .diff = true)
    (ran : syncDirectory library filters run edge = (.ok (), after)) :
    Bolt.Filed (run.subscribed library filters edge) ∧ Bolt.Filed after.db ∧
      (Bolt.layout library).entry after.db = fun place =>
        ((Bolt.layout library).entry (run.subscribed library filters edge) place).filter
          (survives library run.diffModel (run.knows filters edge)) := by
  obtain ⟨ts, stored, subscribed, _, staged, _⟩ := syncDirectory_ok ran
  have same : run.subscribed library filters edge = stored := congrArg Prod.snd subscribed
  have filedStored : Bolt.Filed stored := by
    rw [(subscriberStage_ok subscribed).2]
    exact (Bolt.layout library).sound_run _ filed
  rw [if_pos diffs] at staged
  unfold diffStage at staged
  cases made : (run.produced filters edge.file).2 with
  | none =>
      rw [made] at staged
      cases staged
  | some filter =>
      rw [made] at staged
      have knows : run.knows filters edge = fun key => filters.lookup key filter := by
        funext key
        simp [Run.knows, made]
      obtain ⟨final, performed, filedFinal, _, entries⟩ :=
        run_diff (Bolt.layout library) run.diffModel (run.knows filters edge) filedStored
      rw [knows] at performed
      cases performed.symm.trans (withTx_ok staged).2
      rw [same]
      exact ⟨filedStored, filedFinal, entries⟩

/-- An exported row is still there after the run exactly if the filter knows it or the
validators refuse to have it deleted. -/
theorem read_after_diff_iff (filed : Bolt.Filed edge.db) (diffs : run.mode.has .diff = true)
    (ran : syncDirectory library filters run edge = (.ok (), after)) {entry stored : Entry}
    (live : run.Live library filters edge entry stored) : view Bolt.backend entry.read after.db = .ok stored ↔
      run.knows filters edge (entryKey entry) = true ∨ entryValid library run.diffModel stored = false := by
  obtain ⟨filedStored, filedAfter, entries⟩ := entry_of_diff filed diffs ran
  obtain ⟨_, found, bare⟩ := live
  have key : entryKey stored = entryKey entry := by
    rw [← entryKey_bare, bare, entryKey_bare]
  have there := ((Bolt.layout library).view_read filedStored).mp found
  rw [(Bolt.layout library).view_read filedAfter, entries]
  dsimp only
  rw [there]
  cases known : run.knows filters edge (entryKey entry) <;>
    simp [Option.filter, survives, key, known]

def documentRow (object : Object) : Applied Simple.Model where
  model := Simple.viewersModel
  now := ⟨1, 0⟩
  row := .object (some object)

def exportOf (objects : List Object) : Run Simple.Model where
  mode := .diff
  hub _ := { messages := (objects.map documentRow).map .row }
  diffModel := Simple.viewersModel

theorem diff_exportOf (objects : List Object) : (exportOf objects).mode.has .diff = true :=
  (by decide : Mode.diff.has .diff = true)

def newEdge : Edge (Blob Simple.Model) := { db := Bolt.emptyDB }

def oneDocument : Run Simple.Model := exportOf [{ type := "doc".toList, id := "a".toList }]

end Runs

section Overflow

variable {objects : List Object}

theorem produced_exportOf (objects : List Object) :
    ((exportOf objects).produced FilterLibrary.exact none).1 = objects.map documentRow := by
  unfold Run.produced
  exact produce_rows _ _

theorem exported_exportOf (objects : List Object) :
    (exportOf objects).exported FilterLibrary.exact newEdge = objects.map .object := by
  have rows := congrArg (List.map fun applied => applied.row.entry) (produced_exportOf objects)
  rw [List.map_map] at rows
  exact rows

/-- Documents that the model accepts and that have keys of their own. -/
structure Documents (objects : List Object) : Prop where
  type : ∀ object ∈ objects, object.type = "doc".toList
  id : ∀ object ∈ objects, Simple.plainId object.id = true
  fits : ∀ object ∈ objects, byteLength (objectRowKey object) ≤ Bolt.maxKeySize
  distinct : (objects.map objectRowKey).Nodup

theorem entryValid_document {object : Object} (type : object.type = "doc".toList)
    (id : Simple.plainId object.id = true) :
    entryValid Simple.library Simple.viewersModel (.object object) = true := by
  have named : Simple.plainName object.type = true := by
    rw [type]
    decide
  have declared : Simple.viewersModel.objectTypes.contains object.type = true := by
    rw [type]
    decide
  simp only [entryValid, validateObject, Simple.library, named, id, declared, Simple.require]
  rfl

theorem live_of_documents (documents : Documents objects) {object : Object} (member : object ∈ objects) :
    ∃ stored, (exportOf objects).Live Simple.library .exact newEdge (.object object) stored := by
  let layout := Bolt.layout (ω := Blob Simple.Model) Simple.library
  have filed : layout.sound newEdge.db := Bolt.filed_emptyDB
  have subscribed : (exportOf objects).subscribed Simple.library .exact newEdge =
      ((subscriber Simple.library (objects.map documentRow)).run Bolt.backend newEdge.db).2 := by
    rw [← produced_exportOf objects]
    exact congrArg Prod.snd (subscriberStage_clean rfl _ _)
  have all : appliedRows Simple.library Bolt.backend (objects.map documentRow) newEdge.db =
      objects.map documentRow := by
    refine appliedRows_of_valid layout simple_hashed filed ?_ ?_
    · intro applied found
      obtain ⟨document, listed, rfl⟩ := List.mem_map.mp found
      exact entryValid_document (documents.type document listed) (documents.id document listed)
    · intro applied found
      obtain ⟨document, listed, rfl⟩ := List.mem_map.mp found
      exact documents.fits document listed
  have takes := subscriber_takes layout simple_hashed (objects.map documentRow) filed
  rw [all, List.map_map, ← subscribed] at takes
  have distinct : ((objects.map ((·.row.entry) ∘ documentRow)).map layout.place).Nodup := by
    rw [List.map_map]
    exact (List.nodup_map_iff_inj_on (documents.distinct.of_map _)).mpr fun left leftMember right
      rightMember same => List.inj_on_of_nodup_map documents.distinct leftMember rightMember
        (Sum.inl.inj same)
  have listed : Entry.object object ∈ objects.map ((·.row.entry) ∘ documentRow) :=
    List.mem_map.mpr ⟨object, member, rfl⟩
  rcases takes.entry_of_mem distinct listed with ⟨old, found, _⟩ | ⟨new, bare, _, found⟩
  · rw [show layout.entry newEdge.db _ = none from Bolt.entry_emptyDB _ _] at found
    cases found
  · refine ⟨new, ?_, (layout.view_read ?_).mpr found, bare⟩
    · rw [exported_exportOf]
      exact List.mem_map.mpr ⟨object, member, rfl⟩
    · rw [subscribed]
      exact layout.sound_run _ filed

theorem knows_overflow {before : List Object} {last : Object}
    (distinct : ((before ++ [last]).map objectRowKey).Nodup) (full : before.length = 100000) :
    (exportOf (before ++ [last])).knows FilterLibrary.exact newEdge (objectRowKey last) = false := by
  have size : ((getWatermark newEdge.file).getFilterSize).toNat =
      (before.map objectRowKey).length := by
    rw [List.length_map, full]
    rfl
  have keys : ((exportOf (before ++ [last])).exported FilterLibrary.exact newEdge).map entryKey =
      before.map objectRowKey ++ [objectRowKey last] := by
    rw [exported_exportOf, List.map_map, List.map_append]
    rfl
  rw [Run.knows, produced_filter (diff_exportOf _), keys, exact_insertAll_new, size, List.take_left]
  rw [List.map_append, List.map_singleton, List.nodup_append] at distinct
  have absent : objectRowKey last ∉ before.map objectRowKey := fun member =>
    distinct.2.2 _ member _ (List.mem_singleton_self _) rfl
  simpa [FilterLibrary.exact] using absent

theorem deleted_of_overflow {before : List Object} {last : Object}
    (documents : Documents (before ++ [last])) (full : before.length = 100000) : ∃ after stored,
      syncDirectory Simple.library .exact (exportOf (before ++ [last])) newEdge = (.ok (), after) ∧
      (exportOf (before ++ [last])).Live Simple.library .exact newEdge (.object last) stored ∧
      view Bolt.backend (Entry.read (.object last)) after.db ≠ .ok stored := by
  have member : last ∈ before ++ [last] := by simp
  obtain ⟨after, ran⟩ : ∃ after,
      syncDirectory Simple.library .exact (exportOf (before ++ [last])) newEdge = (.ok (), after) :=
    syncDirectory_clean Bolt.filed_emptyDB ⟨rfl, rfl, rfl, rfl⟩
  obtain ⟨stored, live⟩ := live_of_documents documents member
  refine ⟨after, stored, ran, live, ?_⟩
  rw [ne_eq, read_after_diff_iff Bolt.filed_emptyDB (diff_exportOf _) ran live, not_or]
  refine ⟨?_, ?_⟩
  · rw [entryKey, knows_overflow documents.distinct full]
    decide
  · have bare := live.2.2
    cases stored with
    | relation message => cases bare
    | object message =>
        have same : message.type = last.type ∧ message.id = last.id := by
          simp only [Entry.bare, Entry.object.injEq, Object.mk.injEq] at bare
          exact ⟨bare.1, bare.2.1⟩
        rw [Bool.not_eq_false]
        exact entryValid_document (same.1.trans (documents.type last member))
          (same.2 ▸ documents.id last member)

def numberedDocument (index : Nat) : Object :=
  { type := "doc".toList, id := [Char.ofNat (65536 + index)] }

theorem toNat_number {index : Nat} (small : index ≤ 100000) :
    (Char.ofNat (65536 + index)).toNat = 65536 + index := by
  have valid : (65536 + index).isValidChar := .inr ⟨by omega, by omega⟩
  rw [Char.ofNat, dif_pos valid]
  exact Char.toNat_ofNatAux valid

theorem documents_numbered {count : Nat} (small : count ≤ 100000) :
    Documents ((List.range count).map numberedDocument ++ [numberedDocument count]) := by
  have whole : (List.range count).map numberedDocument ++ [numberedDocument count] =
      (List.range (count + 1)).map numberedDocument := by
    rw [List.range_succ, List.map_append, List.map_singleton]
  rw [whole]
  have listed (object : Object) (member : object ∈ (List.range (count + 1)).map numberedDocument) :
      ∃ index ≤ 100000, numberedDocument index = object := by
    obtain ⟨index, found, same⟩ := List.mem_map.mp member
    exact ⟨index, (Nat.lt_succ_iff.mp (List.mem_range.mp found)).trans small, same⟩
  constructor
  · intro object member
    obtain ⟨index, _, rfl⟩ := listed object member
    rfl
  · intro object member
    obtain ⟨index, bound, rfl⟩ := listed object member
    have number := toNat_number bound
    have visible : isSpace (Char.ofNat (65536 + index)) = false := by
      simp only [isSpace, number]
      simp
      omega
    simp [Simple.plainId, numberedDocument, visible]
  · intro object member
    obtain ⟨index, _, rfl⟩ := listed object member
    have size := Char.utf8Size_le_four (Char.ofNat (65536 + index))
    simp only [objectRowKey, numberedDocument, byteLength_append, byteLength_cons, byteLength_nil,
      Bolt.maxKeySize]
    have name : byteLength "doc".toList = 3 := by decide
    have colon : ':'.utf8Size = 1 := by decide
    omega
  · rw [List.map_map]
    refine List.Nodup.map_on ?_ List.nodup_range
    intro left leftMember right rightMember same
    have chars : Char.ofNat (65536 + left) = Char.ofNat (65536 + right) := by
      simpa [objectRowKey, numberedDocument] using same
    have numbers := congrArg Char.toNat chars
    rw [toNat_number ((Nat.lt_succ_iff.mp (List.mem_range.mp leftMember)).trans small),
      toNat_number ((Nat.lt_succ_iff.mp (List.mem_range.mp rightMember)).trans small)] at numbers
    omega

end Overflow

end Eamerald.Datasync
