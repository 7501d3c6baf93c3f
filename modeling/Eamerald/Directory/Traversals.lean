import Eamerald.Directory.PolicyProperties
import Eamerald.Directory.RoundTrip
import Eamerald.Directory.SortedScans
import Eamerald.Foundation.Leaves

/-! Clients that page through the objects while the directory changes. Between two pages any
operations are committed, also ones that remove the row that the next page begins with. -/

set_option autoImplicit false

namespace Eamerald.Directory

open Foundation Store

section Types

def plainTypes : RowPolicy := ⟨fun objectType _ => Bolt.PlainName objectType, fun _ => True, fun _ => True, True⟩

/-- The validators accept an object only under a name without separators. -/
structure PlainObjects {μ : Type} (library : Library μ) : Prop where
  setRequest : ∀ object, library.setObjectRequest object = .ok () → Bolt.PlainName object.type
  message : ∀ object, library.object object = .ok () → Bolt.PlainName object.type

variable {ω μ : Type} [Wire ω μ] {library : Library μ}

theorem Operation.admits_plainTypes (plain : PlainObjects library) (operation : Operation μ) :
    operation.Admits library plainTypes := by
  have object (model : μ) (request : Option Object) : AdmitsObject library plainTypes model request :=
    fun object _ valid _ => plain.message object valid
  have relation (model : μ) (request : Option Relation) :
      AdmitsRelation library plainTypes model request := fun _ _ _ _ => ⟨trivial, trivial⟩
  cases operation with
  | setObject model ifMatch now message => exact plain.setRequest message
  | setRelation | deleteRelation => exact fun _ => trivial
  | deleteObject | diff | setManifest | syncManifest | deleteManifest => exact trivial
  | importStream requests ending =>
      intro received _
      cases received.request.message with
      | object message => exact object received.model message
      | relation message => exact relation received.model message
      | unset => exact trivial
  | subscriber rows =>
      intro applied _
      cases applied.row with
      | object message => exact object applied.model message
      | relation message => exact relation applied.model message

namespace Engine

variable {engine : Engine ω} {state after : engine.State}

def objects (library : Library μ) (engine : Engine ω) (state : engine.State) :
    engine.ObjectPlace → Option Object :=
  ((engine.layout library).data state).objects

theorem plainTypes_iff (sound : (engine.layout library).sound state) : engine.PlainTypes μ state ↔
      ∀ place object, engine.objects library state place = some object → Bolt.PlainName object.type := by
  constructor
  · intro plain place object found
    refine plain object ((holdsObject_iff sound object).mpr ?_)
    have here := (engine.layout library).objects.keyed sound found
    exact here ▸ found
  · intro plain object holds
    exact plain _ object ((holdsObject_iff sound object).mp holds)

theorem entry_inl_eq_some {place : engine.ObjectPlace} {object : Object} :
    (engine.layout library).entry state (.inl place) = some (.object object) ↔
      engine.objects library state place = some object := by
  change (engine.objects library state place).map Entry.object = _ ↔ _
  cases engine.objects library state place <;> simp

theorem honours_plainTypes (library : Library μ) (engine : Engine ω) :
    engine.backend.Honours (plainTypes.contract (μ := μ)) fun state =>
      (engine.layout library).sound state ∧ engine.PlainTypes μ state := by
  rintro β op state ⟨sound, plain⟩ allowed
  have soundAfter := (engine.layout library).keeps op sound
  refine ⟨⟨soundAfter, ?_⟩, ?_⟩
  · rw [plainTypes_iff sound] at plain
    rw [plainTypes_iff soundAfter]
    intro place object found
    rw [← entry_inl_eq_some] at found
    rcases entry_exec sound allowed with same | ⟨written, row, named, _, changed⟩ | gone
    · rw [same] at found
      exact plain place object (entry_inl_eq_some.mp found)
    · rw [changed, Function.update_apply] at found
      split at found
      · exact named object found
      · exact plain place object (entry_inl_eq_some.mp found)
    · rw [gone] at found
      cases found
  · cases op with
    | scanRelations => exact fun _ _ _ _ => trivial
    | _ => exact trivial

theorem plainTypes_runOperations (plain : PlainObjects library) (operations : List (Operation μ))
    (sound : (engine.layout library).sound state) (plainTypes : engine.PlainTypes μ state) :
    (engine.layout library).sound (runOperations library engine.backend operations state) ∧
      engine.PlainTypes μ (runOperations library engine.backend operations state) := by
  induction operations generalizing state with
  | nil => exact ⟨sound, plainTypes⟩
  | cons operation rest ih =>
      have kept := (Operation.within (operation.admits_plainTypes plain)).commit
        (honours_plainTypes library engine) ⟨sound, plainTypes⟩
      exact ih kept.1 kept.2

end Engine

end Types

section Traversal

variable {start : Option ObjectIdentifier}

structure Visit (μ : Type) where
  operations : List (Operation μ)
  model : μ
  pageSize : Int32

structure Served (σ : Type) where
  state : σ
  token : GoString
  pageSize : Int32
  objects : List Object
  nextToken : GoString

variable {ω μ : Type} [Wire ω μ]

def traverse (library : ListLibrary μ) (engine : Engine ω) (objectType : GoString) :
    List (Visit μ) → GoString → engine.State → Except Err (List (Served engine.State))
  | [], _, _ => .ok []
  | visit :: later, token, state => do
      let state := runOperations library.toLibrary engine.backend visit.operations state
      let (objects, nextToken) ←
        objectPages library visit.model engine.backend state visit.pageSize objectType token
      let rest ← if nextToken = [] then .ok [] else traverse library engine objectType later nextToken state
      return ⟨state, token, visit.pageSize, objects, nextToken⟩ :: rest

def received {σ : Type} (pages : List (Served σ)) : List Object := pages.flatMap Served.objects

def Engine.NotInFront (engine : Engine ω) (token : GoString) (ident : ObjectIdentifier) : Prop :=
  ∀ place, engine.objectToken place = token → (engine.compareObjects ident place).isGE = true

/-- What a client that pages through the objects can rely on. -/
structure ExactPages (μ : Type) [Wire ω μ] (engine : Engine ω) (objectType : GoString)
    (pages : List (Served engine.State)) : Prop where
  bounded : ∀ page ∈ pages, (page.objects.length : Int) ≤ page.pageSize.toInt
  stored : ∀ page ∈ pages, ∀ object ∈ page.objects, ∃ stored, engine.HoldsObject μ page.state stored ∧
    Selected objectType stored.ident ∧ object = patchObjectRead stored
  increasing : ((received pages).map Object.ident).Pairwise fun left right =>
    engine.compareObjects left right = .lt
  distinct : ((received pages).map Object.ident).Nodup
  complete : (∃ last, pages.getLast? = some last ∧ last.nextToken = []) →
    ∀ ident, Selected objectType ident →
      (∀ page ∈ pages, ∃ object, engine.HoldsObject μ page.state object ∧ object.ident = ident) →
      ((received pages).map Object.ident).count ident = 1
  ends : ∀ before page after, pages = before ++ page :: after →
    (page.nextToken = [] ↔ ¬ ∃ object, engine.HoldsObject μ page.state object ∧
      Selected objectType object.ident ∧ engine.NotInFront page.token object.ident ∧
      ∀ earlier ∈ received (before ++ [page]),
        engine.compareObjects earlier.ident object.ident = .lt)

namespace Engine

variable {engine : Engine ω}

theorem objectToken_ne_nil (lawful : engine.Lawful) (ident : ObjectIdentifier) :
    engine.objectToken ident ≠ [] := by
  cases engine with
  | bolt => exact Bolt.objectPlace_ne_nil ident
  | postgres server => exact Postgres.Server.Lawful.token lawful _ (List.cons_ne_nil _ _)

theorem compareObjects_congr {left right : ObjectIdentifier}
    (same : engine.objectToken left = engine.objectToken right) (ident : ObjectIdentifier) :
    engine.compareObjects ident left = engine.compareObjects ident right := by
  cases engine with
  | bolt => exact congrArg (compare (Bolt.objectPlace ident)) same
  | postgres server =>
      have columns := server.tokens.marshal_injective same
      exact congrArg (List.compareLex server.collate (Postgres.objectColumns ident)) columns

def startToken (engine : Engine ω) (start : Option ObjectIdentifier) : GoString :=
  start.elim [] engine.objectToken

theorem startToken_eq_nil_iff (lawful : engine.Lawful) : engine.startToken start = [] ↔ start = none := by
  cases start with
  | none => exact iff_of_true rfl rfl
  | some place => exact iff_of_false (objectToken_ne_nil lawful place) (Option.some_ne_none place)

theorem notInFront_startToken_iff (lawful : engine.Lawful) (start : Option ObjectIdentifier)
    (ident : ObjectIdentifier) :
    engine.NotInFront (engine.startToken start) ident ↔ NotBefore engine.compareObjects start ident := by
  cases start with
  | none =>
      refine iff_of_true (fun place blank => absurd blank (objectToken_ne_nil lawful place)) ?_
      rintro _ ⟨⟩
  | some start =>
      constructor
      · rintro behind _ ⟨⟩
        exact behind start rfl
      · intro behind place same
        rw [compareObjects_congr same]
        exact behind start rfl

end Engine

structure Visit.Accepted (library : ListLibrary μ) (objectType : GoString) (visit : Visit μ) : Prop where
  positive : 0 < visit.pageSize.toInt
  valid : ∀ token, library.getObjectsRequest { objectType, page := some ⟨visit.pageSize, token⟩ } = .ok ()
  selectable : objectType ≠ [] → library.validateObjectSelector visit.model ⟨objectType, []⟩ = .ok ()

variable {library : ListLibrary μ} {engine : Engine ω} {objectType : GoString}

theorem objectPages_eq {state : engine.State} {listed : List Object}
    (lists : engine.ListsObjects μ objectType state listed) {visit : Visit μ}
    (accepted : visit.Accepted library objectType) (selected : ∀ place ∈ start, Selected objectType place) :
    ∃ taken rest, taken ++ rest = listed.filter (fun object =>
        start.all fun place => (engine.compareObjects object.ident place).isGE) ∧
      objectPages library visit.model engine.backend state visit.pageSize objectType (engine.startToken start) =
          .ok (taken.map patchObjectRead, engine.startToken (rest.head?.map Object.ident)) ∧
      (taken.length : Int) ≤ visit.pageSize.toInt := by
  have scanned : engine.backend.exec (TxOp.scanObjects (μ := μ) objectType (engine.startToken start)) state =
      (.ok { rows := (listed.filter fun object =>
        start.all fun place => (engine.compareObjects object.ident place).isGE).map engine.objectRow },
        state) := by
    cases start with
    | none =>
        simp only [Option.all_none, List.filter_true]
        exact lists.whole
    | some place => exact (lists.behind place (selected place rfl)).2
  generalize listed.filter _ = left at scanned
  have answered : objectPages library visit.model engine.backend state visit.pageSize objectType
      (engine.startToken start) =
        .ok ((takePage (fun _ => true) visit.pageSize (left.map engine.objectRow) []).items.map
          patchObjectRead,
        (takePage (fun _ => true) visit.pageSize (left.map engine.objectRow) []).nextToken) := by
    rw [objectPages, getObjects_of_valid (accepted.valid _) accepted.selectable]
    simp only [listObjects, view, Program.bind_eq, Program.run_bind, Program.run_lift, Option.getD_some,
      scanned]
    rfl
  have room : (([] : List Object).length : Int) < visit.pageSize.toInt := accepted.positive
  have bounded := length_takePage (fun _ => true) visit.pageSize (left.map engine.objectRow) room
  obtain ⟨takenRows, restRows, split, items, ends⟩ :=
    takePage_cuts (fun _ => true) visit.pageSize (left.map engine.objectRow) []
  obtain ⟨taken, rest, rfl, rfl, rfl⟩ := List.map_eq_append_iff.mp split
  have values : (takePage (fun _ => true) visit.pageSize ((taken ++ rest).map engine.objectRow) []).items =
      taken := by
    rw [items, List.filter_true, List.nil_append, List.map_map]
    exact List.map_id taken
  refine ⟨taken, rest, rfl, ?_, ?_⟩
  · rw [answered, values]
    rcases ends with ⟨last, token⟩ | ⟨next, more, _, behind, token⟩
    · rw [token, List.map_eq_nil_iff.mp last]
      rfl
    · obtain ⟨object, others, rfl, rfl, _⟩ := List.map_eq_cons_iff.mp behind
      rw [token]
      rfl
  · rw [values] at bounded
    exact bounded

theorem traverse_cons {visit : Visit μ} {later : List (Visit μ)} {token nextToken : GoString}
    {state : engine.State} {objects : List Object} {rest : List (Served engine.State)}
    (answered : objectPages library visit.model engine.backend
      (runOperations library.toLibrary engine.backend visit.operations state) visit.pageSize objectType token =
        .ok (objects, nextToken))
    (continued : (if nextToken = [] then .ok [] else traverse library engine objectType later nextToken
      (runOperations library.toLibrary engine.backend visit.operations state)) = .ok rest) :
    traverse library engine objectType (visit :: later) token state =
      .ok (⟨runOperations library.toLibrary engine.backend visit.operations state, token, visit.pageSize,
        objects, nextToken⟩ :: rest) := by
  rw [traverse]
  dsimp only
  rw [answered]
  by_cases blank : nextToken = []
  · rw [if_pos blank] at continued
    cases continued
    exact if_pos blank
  · rw [if_neg blank] at continued
    refine (if_neg blank).trans ?_
    rw [continued]
    rfl

structure Records (μ : Type) [Wire ω μ] (engine : Engine ω) (objectType : GoString)
    (page : Served engine.State) (leaf : Leaf ObjectIdentifier) : Prop where
  listing : ∃ listed, engine.ListsObjects μ objectType page.state listed ∧
    leaf.listed = listed.map Object.ident ∧
    ∀ object ∈ page.objects, ∃ stored ∈ listed, object = patchObjectRead stored
  taken : leaf.taken = page.objects.map Object.ident
  token : page.token = engine.startToken leaf.start
  nextToken : page.nextToken = engine.startToken leaf.next
  bounded : (page.objects.length : Int) ≤ page.pageSize.toInt

theorem exists_page {state : engine.State} {listed : List Object}
    (lists : engine.ListsObjects μ objectType state listed) {visit : Visit μ}
    (accepted : visit.Accepted library objectType) (selected : ∀ place ∈ start, Selected objectType place) :
    ∃ objects leaf, objectPages library visit.model engine.backend state visit.pageSize objectType
        (engine.startToken start) = .ok (objects, engine.startToken leaf.next) ∧
      leaf.start = start ∧ leaf.Cut engine.compareObjects ∧ (∀ place ∈ leaf.next, Selected objectType place) ∧
      Records μ engine objectType ⟨state, engine.startToken start, visit.pageSize, objects,
        engine.startToken leaf.next⟩ leaf := by
  obtain ⟨taken, rest, split, answered, bounded⟩ := objectPages_eq lists accepted selected
  have listedOf (object : Object) (member : object ∈ taken ∨ object ∈ rest) : object ∈ listed := by
    rw [← List.mem_append, split] at member
    exact List.mem_of_mem_filter member
  let leaf : Leaf ObjectIdentifier :=
    ⟨listed.map Object.ident, start, taken.map Object.ident, rest.head?.map Object.ident⟩
  refine ⟨taken.map patchObjectRead, leaf, answered, rfl, ⟨lists.sorted, rest.map Object.ident, ?_, ?_⟩,
    ?_, ⟨listed, lists, rfl, ?_⟩, ?_, rfl, rfl, ?_⟩
  · rw [← List.map_append, split, List.filter_map]
    rfl
  · exact List.head?_map.symm
  · intro place next
    obtain ⟨object, first, rfl⟩ := Option.map_eq_some_iff.mp next
    exact ((lists.holds object).mp (listedOf object (.inr (List.mem_of_mem_head? first)))).2
  · intro object member
    obtain ⟨stored, there, rfl⟩ := List.mem_map.mp member
    exact ⟨stored, listedOf stored (.inl there), rfl⟩
  · rw [List.map_map]
    exact List.map_congr_left fun object _ => (ident_patchObjectRead object).symm
  · rw [List.length_map]
    exact bounded

theorem idents_received {steps : List (Served engine.State × Leaf ObjectIdentifier)}
    (recorded : ∀ step ∈ steps, Records μ engine objectType step.1 step.2) :
    (received (steps.map Prod.fst)).map Object.ident = (steps.map Prod.snd).flatMap Leaf.taken := by
  induction steps with
  | nil => rfl
  | cons step later ih =>
      rw [List.map_cons, List.map_cons, received, List.flatMap_cons, List.map_append, List.flatMap_cons,
        (recorded step List.mem_cons_self).taken]
      exact congrArg _ (ih fun other member => recorded other (List.mem_cons_of_mem step member))

theorem Records.mem_listed_iff {page : Served engine.State} {leaf : Leaf ObjectIdentifier}
    (records : Records μ engine objectType page leaf) (ident : ObjectIdentifier) :
    ident ∈ leaf.listed ↔ ∃ object, engine.HoldsObject μ page.state object ∧
      Selected objectType object.ident ∧ object.ident = ident := by
  obtain ⟨listed, lists, same, _⟩ := records.listing
  rw [same, List.mem_map]
  exact exists_congr fun object => by rw [lists.holds, and_assoc]

theorem exactPages_of_chained (lawful : engine.Lawful)
    {steps : List (Served engine.State × Leaf ObjectIdentifier)}
    (chained : Chained engine.compareObjects none (steps.map Prod.snd))
    (recorded : ∀ step ∈ steps, Records μ engine objectType step.1 step.2) :
    ExactPages μ engine objectType (steps.map Prod.fst) := by
  have := Engine.transCmp_compareObjects lawful
  have sorted := chained.sorted
  rw [← idents_received recorded] at sorted
  have distinct : ((received (steps.map Prod.fst)).map Object.ident).Nodup := by
    refine sorted.imp fun {left right} before same => ?_
    rw [same] at before
    exact Std.OrientedCmp.not_lt_of_lt before before
  refine ⟨?_, ?_, sorted, distinct, ?_, ?_⟩
  · intro page member
    obtain ⟨step, there, rfl⟩ := List.mem_map.mp member
    exact (recorded step there).bounded
  · intro page member object given
    obtain ⟨step, there, rfl⟩ := List.mem_map.mp member
    obtain ⟨listed, lists, _, patched⟩ := (recorded step there).listing
    obtain ⟨stored, found, same⟩ := patched object given
    obtain ⟨holds, selected⟩ := (lists.holds stored).mp found
    exact ⟨stored, holds, selected, same⟩
  · rintro ⟨last, found, blank⟩ ident selected stays
    rw [List.count_eq_one_of_mem distinct]
    rw [idents_received recorded]
    rw [List.getLast?_map] at found
    obtain ⟨step, lastStep, rfl⟩ := Option.map_eq_some_iff.mp found
    refine chained.complete ⟨step.2, ?_, ?_⟩ ?_ ?_
    · rw [List.getLast?_map, lastStep]
      rfl
    · rw [(recorded step (List.mem_of_getLast? lastStep)).nextToken] at blank
      exact (Engine.startToken_eq_nil_iff lawful).mp blank
    · rintro _ ⟨⟩
    · intro leaf member
      obtain ⟨other, there, rfl⟩ := List.mem_map.mp member
      obtain ⟨object, holds, same⟩ := stays other.1 (List.mem_map_of_mem there)
      exact ((recorded other there).mem_listed_iff ident).mpr ⟨object, holds, same ▸ selected, same⟩
  · intro before page after split
    obtain ⟨front, rest, rfl, rfl, behind⟩ := List.map_eq_append_iff.mp split
    obtain ⟨step, others, rfl, rfl, rfl⟩ := List.map_eq_cons_iff.mp behind
    have records := recorded step (by simp)
    rw [List.map_append, List.map_cons] at chained
    have soFar : ∀ earlier ∈ front ++ [step], Records μ engine objectType earlier.1 earlier.2 := by
      intro earlier member
      refine recorded earlier ?_
      rw [← List.singleton_append, ← List.append_assoc]
      exact List.mem_append_left others member
    have idents := idents_received soFar
    rw [List.map_append, List.map_append, List.map_singleton, List.map_singleton] at idents
    rw [records.nextToken, Engine.startToken_eq_nil_iff lawful, chained.next_eq_none_iff, ← idents,
      records.token]
    simp only [List.forall_mem_map, records.mem_listed_iff, Engine.notInFront_startToken_iff lawful]
    refine not_congr ⟨?_, ?_⟩
    · rintro ⟨_, ⟨object, holds, selected, rfl⟩, placed, further⟩
      exact ⟨object, holds, selected, placed, further⟩
    · rintro ⟨object, holds, selected, placed, further⟩
      exact ⟨object.ident, ⟨object, holds, selected, rfl⟩, placed, further⟩

variable (lawful : engine.Lawful) (plainObjects : PlainObjects library.toLibrary)
  (plain : objectType ≠ [] → Bolt.PlainName objectType)

include lawful plainObjects plain

theorem exists_chained {visits : List (Visit μ)} (accepted : ∀ visit ∈ visits, visit.Accepted library objectType)
    {state : engine.State} (sound : (engine.layout library.toLibrary).sound state)
    (plainTypes : engine.PlainTypes μ state) (selected : ∀ place ∈ start, Selected objectType place) :
    ∃ steps : List (Served engine.State × Leaf ObjectIdentifier),
      traverse library engine objectType visits (engine.startToken start) state = .ok (steps.map Prod.fst) ∧
      Chained engine.compareObjects start (steps.map Prod.snd) ∧
      ∀ step ∈ steps, Records μ engine objectType step.1 step.2 := by
  induction visits generalizing state start with
  | nil => exact ⟨[], rfl, .nil, by simp⟩
  | cons visit later ih =>
      obtain ⟨soundNow, plainNow⟩ :=
        Engine.plainTypes_runOperations plainObjects visit.operations sound plainTypes
      obtain ⟨listed, lists⟩ := Engine.exists_listsObjects lawful soundNow plainNow plain
      obtain ⟨objects, leaf, answered, rfl, cut, selectedNext, records⟩ :=
        exists_page lists (accepted visit List.mem_cons_self) selected
      obtain ⟨steps, traversed, chained, recorded⟩ :=
        ih (fun other member => accepted other (List.mem_cons_of_mem visit member)) soundNow plainNow selectedNext
      cases next : leaf.next with
      | none =>
          have blank : engine.startToken leaf.next = [] := by rw [next]; rfl
          refine ⟨[(_, leaf)], traverse_cons answered (if_pos blank), .cons cut (fun _ => rfl) .nil, ?_⟩
          intro step member
          rw [List.mem_singleton.mp member]
          exact records
      | some place =>
          have nonblank : engine.startToken leaf.next ≠ [] := by
            rw [next]
            exact Engine.objectToken_ne_nil lawful place
          refine ⟨(_, leaf) :: steps, traverse_cons answered ((if_neg nonblank).trans traversed), ?_, ?_⟩
          · exact .cons cut (fun done => absurd (next.symm.trans done) (by simp)) chained
          · intro step member
            rcases List.mem_cons.mp member with rfl | member
            · exact records
            · exact recorded step member

/-- A client that pages through the objects of a type, or through all, meets everything that is
there all the time, in order and once, whatever is committed between its pages. -/
theorem paging_objects_exact {visits : List (Visit μ)}
    (accepted : ∀ visit ∈ visits, visit.Accepted library objectType)
    {state : engine.State} (sound : (engine.layout library.toLibrary).sound state)
    (plainTypes : engine.PlainTypes μ state) :
    ∃ pages, traverse library engine objectType visits [] state = .ok pages ∧
      ExactPages μ engine objectType pages := by
  have := Engine.transCmp_compareObjects lawful
  have anywhere : ∀ place ∈ (none : Option ObjectIdentifier), Selected objectType place := by simp
  obtain ⟨steps, traversed, chained, recorded⟩ :=
    exists_chained lawful plainObjects plain accepted sound plainTypes anywhere
  refine ⟨steps.map Prod.fst, traversed, exactPages_of_chained lawful chained recorded⟩

end Traversal

section Gap

theorem simple_plainObjects : PlainObjects Simple.library := by
  have plainType {object : Object} {message : String}
      (accepted : Simple.require (Simple.plainName object.type && Simple.plainId object.id) message = .ok ()) :
      Bolt.PlainName object.type := by
    unfold Simple.require at accepted
    split at accepted
    · rename_i checked
      exact of_decide_eq_true (Bool.and_eq_true_iff.mp checked).1
    · cases accepted
  exact ⟨fun _ => plainType, fun _ => plainType⟩

def document (id : String) : Object := { type := "doc".toList, id := id.toList }

def setDocument (id : String) (seconds : Nat) : Operation Simple.Model :=
  .setObject Simple.viewersModel [] ⟨seconds, 0⟩ (document id)

def outerDocuments : boltEngine.State :=
  boltEngine.reached Simple.library [setDocument "a" 1, setDocument "c" 2]

def gapVisits : List (Visit Simple.Model) :=
  [⟨[], Simple.viewersModel, 1⟩,
    ⟨[.deleteObject Simple.viewersModel [] ⟨3, 0⟩ ⟨"doc".toList, "c".toList, false⟩, setDocument "b" 4],
      Simple.viewersModel, 1⟩]

theorem accepted_gapVisits : ∀ visit ∈ gapVisits, visit.Accepted simpleLists "doc".toList := by
  intro visit member
  simp only [gapVisits, List.mem_cons, List.not_mem_nil, or_false] at member
  rcases member with rfl | rfl <;> exact ⟨by decide, fun _ => rfl, fun _ => by decide⟩

theorem plainTypes_outerDocuments : boltEngine.PlainTypes Simple.Model outerDocuments := by
  have empty : boltEngine.PlainTypes Simple.Model boltEngine.empty := by
    intro object holds
    cases holds
  exact (Engine.plainTypes_runOperations simple_plainObjects _ boltEngine.sound_empty empty).2

theorem paging_across_gap :
    ∃ pages, traverse simpleLists boltEngine "doc".toList gapVisits [] outerDocuments = .ok pages ∧
      ExactPages Simple.Model boltEngine "doc".toList pages := by
  have lawful : boltEngine.Lawful := trivial
  exact paging_objects_exact lawful simple_plainObjects (fun _ => by decide) accepted_gapVisits
    (boltEngine.sound_reached _) plainTypes_outerDocuments

/-- The token is empty exactly on a page with no further object behind all that was given. -/
def EmptyAtEnd (pages : List (Served boltEngine.State)) : Prop :=
  ∀ before page after, pages = before ++ page :: after →
    (page.nextToken = [] ↔ ¬ ∃ object, boltEngine.HoldsObject Simple.Model page.state object ∧
      Selected "doc".toList object.ident ∧ ∀ earlier ∈ received (before ++ [page]),
        boltEngine.compareObjects earlier.ident object.ident = .lt)

def pageSummary (page : Served boltEngine.State) :
    List ObjectIdentifier × GoString × Option ObjectIdentifier :=
  (page.objects.map Object.ident, page.nextToken,
    ((boltEngine.backend.exec (TxOp.getObject (μ := Simple.Model) "doc".toList "b".toList) page.state).1).toOption.map
      Object.ident)

theorem summaries_across_gap :
    ((traverse simpleLists boltEngine "doc".toList gapVisits [] outerDocuments).toOption.map fun pages =>
      pages.map pageSummary) =
      some [([(document "a").ident], "doc:c".toList, none), ([], [], some (document "b").ident)] := by
  decide +kernel

/-- The second page is empty and the last one, although b lies behind a. -/
theorem object_in_gap_missed :
    ∃ pages, traverse simpleLists boltEngine "doc".toList gapVisits [] outerDocuments = .ok pages ∧
      ¬ EmptyAtEnd pages := by
  have summaries := summaries_across_gap
  cases traversed : traverse simpleLists boltEngine "doc".toList gapVisits [] outerDocuments with
  | error error =>
      rw [traversed] at summaries
      cases summaries
  | ok pages =>
      rw [traversed] at summaries
      refine ⟨pages, rfl, fun claimed => ?_⟩
      obtain ⟨first, others, rfl, firstSummary, later⟩ := List.map_eq_cons_iff.mp (Option.some.inj summaries)
      obtain ⟨second, none_left, rfl, secondSummary, nothing⟩ := List.map_eq_cons_iff.mp later
      cases List.map_eq_nil_iff.mp nothing
      simp only [pageSummary, Prod.mk.injEq] at firstSummary secondSummary
      obtain ⟨given, _, _⟩ := firstSummary
      obtain ⟨nothingGiven, blank, there⟩ := secondSummary
      obtain ⟨object, found, ident⟩ := Option.map_eq_some_iff.mp there
      have sameType : object.type = "doc".toList := congrArg ObjectIdentifier.objectType ident
      have sameId : object.id = "b".toList := congrArg ObjectIdentifier.objectId ident
      refine (claimed [first] second [] rfl).mp blank ⟨object, ?_, .inr sameType, ?_⟩
      · rw [Engine.HoldsObject, sameType, sameId]
        refine Prod.ext ?_ rfl
        cases read : (boltEngine.backend.exec (TxOp.getObject (μ := Simple.Model) "doc".toList "b".toList)
          second.state).1 with
        | error error =>
            rw [read] at found
            cases found
        | ok stored =>
            rw [read] at found
            exact congrArg Except.ok (Option.some.inj found)
      · intro earlier member
        have idents : (received ([first] ++ [second])).map Object.ident = [(document "a").ident] := by
          simp [received, given, nothingGiven]
        have listed : earlier.ident ∈ (received ([first] ++ [second])).map Object.ident :=
          List.mem_map_of_mem member
        rw [idents, List.mem_singleton] at listed
        rw [listed, ident]
        decide

end Gap

end Eamerald.Directory
