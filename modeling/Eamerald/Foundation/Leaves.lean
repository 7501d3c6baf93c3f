import Mathlib

/-! Pages of a listing that changes from page to page. A page begins at a place, takes the
first of the items that are not in front of it, and leaves the next item behind as the place
of the page after it. By then the item may be gone; its place is still one in the order. -/

set_option autoImplicit false

namespace Eamerald.Foundation

variable {α : Type} (cmp : α → α → Ordering) {item : α}

/-- Not in front of a place, which is the beginning if there is none. -/
def NotBefore (start : Option α) (item : α) : Prop := ∀ place ∈ start, (cmp item place).isGE = true

/-- A page, with all items that were listed when it was taken. -/
structure Leaf (α : Type) where
  listed : List α
  start : Option α
  taken : List α
  next : Option α

structure Leaf.Cut (leaf : Leaf α) : Prop where
  sorted : leaf.listed.Pairwise fun left right => cmp left right = .lt
  split : ∃ rest, leaf.taken ++ rest = leaf.listed.filter (fun item =>
    leaf.start.all fun place => (cmp item place).isGE) ∧ leaf.next = rest.head?

/-- Every page begins where the one before stopped, and none follows a page that took
all there was. -/
inductive Chained : Option α → List (Leaf α) → Prop where
  | nil {start : Option α} : Chained start []
  | cons {leaf : Leaf α} {later : List (Leaf α)} (cut : leaf.Cut cmp)
      (ends : leaf.next = none → later = []) (follows : Chained leaf.next later) :
      Chained leaf.start (leaf :: later)

def Finished (leaves : List (Leaf α)) : Prop :=
  ∃ leaf, leaves.getLast? = some leaf ∧ leaf.next = none

variable {cmp}

namespace Leaf.Cut

variable {leaf : Leaf α}

theorem mem_rest_iff {rest : List α} (split : leaf.taken ++ rest = leaf.listed.filter (fun item =>
    leaf.start.all fun place => (cmp item place).isGE)) :
    item ∈ leaf.taken ∨ item ∈ rest ↔ item ∈ leaf.listed ∧ NotBefore cmp leaf.start item := by
  rw [← List.mem_append, split, List.mem_filter, NotBefore]
  cases leaf.start <;> simp

variable (cut : leaf.Cut cmp)

include cut

theorem notBefore (member : item ∈ leaf.taken) : NotBefore cmp leaf.start item := by
  obtain ⟨rest, split, _⟩ := cut.split
  exact ((mem_rest_iff split).mp (.inl member)).2

theorem listed (member : item ∈ leaf.taken) : item ∈ leaf.listed := by
  obtain ⟨rest, split, _⟩ := cut.split
  exact ((mem_rest_iff split).mp (.inl member)).1

theorem ordered {rest : List α} (split : leaf.taken ++ rest = leaf.listed.filter (fun item =>
    leaf.start.all fun place => (cmp item place).isGE)) :
    leaf.taken.Pairwise (fun left right => cmp left right = .lt) ∧
      rest.Pairwise (fun left right => cmp left right = .lt) ∧
      ∀ left ∈ leaf.taken, ∀ right ∈ rest, cmp left right = .lt := by
  have sorted := cut.sorted.filter fun item => leaf.start.all fun place => (cmp item place).isGE
  rw [← split] at sorted
  exact List.pairwise_append.mp sorted

theorem sorted_taken : leaf.taken.Pairwise fun left right => cmp left right = .lt := by
  obtain ⟨rest, split, _⟩ := cut.split
  exact (cut.ordered split).1

theorem next_notBefore {place : α} (next : leaf.next = some place) : NotBefore cmp leaf.start place := by
  obtain ⟨rest, split, head⟩ := cut.split
  have member : place ∈ rest := List.mem_of_mem_head? (head ▸ next)
  exact ((mem_rest_iff split).mp (.inr member)).2

theorem taken_lt_next {place : α} (next : leaf.next = some place) (member : item ∈ leaf.taken) :
    cmp item place = .lt := by
  obtain ⟨rest, split, head⟩ := cut.split
  exact (cut.ordered split).2.2 item member place (List.mem_of_mem_head? (head ▸ next))

variable [Std.TransCmp cmp]

theorem next_eq_none_iff : leaf.next = none ↔ ¬ ∃ item ∈ leaf.listed, NotBefore cmp leaf.start item ∧
      ∀ taken ∈ leaf.taken, cmp taken item = .lt := by
  obtain ⟨rest, split, head⟩ := cut.split
  rw [head, List.head?_eq_none_iff]
  constructor
  · rintro rfl ⟨item, listed, placed, further⟩
    rcases (mem_rest_iff split).mpr ⟨listed, placed⟩ with member | member
    · exact Std.OrientedCmp.not_lt_of_lt (further item member) (further item member)
    · cases member
  · intro none_further
    refine List.eq_nil_iff_forall_not_mem.mpr fun item member => none_further ⟨item, ?_⟩
    obtain ⟨listed, placed⟩ := (mem_rest_iff split).mp (.inr member)
    exact ⟨listed, placed, fun taken earlier => (cut.ordered split).2.2 taken earlier item member⟩

theorem left_over (listed : item ∈ leaf.listed) (placed : NotBefore cmp leaf.start item)
    (left : item ∉ leaf.taken) : ∃ place, leaf.next = some place ∧ (cmp item place).isGE = true := by
  obtain ⟨rest, split, head⟩ := cut.split
  have sorted := (cut.ordered split).2.1
  rcases (mem_rest_iff split).mpr ⟨listed, placed⟩ with member | member
  · exact absurd member left
  · cases rest with
    | nil => cases member
    | cons place others =>
        refine ⟨place, head, ?_⟩
        rw [List.pairwise_cons] at sorted
        rcases List.mem_cons.mp member with rfl | member
        · have self : cmp item item = .eq := Std.ReflCmp.compare_self
          rw [self]
          rfl
        · rw [Std.OrientedCmp.gt_of_lt (sorted.1 item member)]
          rfl

end Leaf.Cut

namespace Chained

variable [Std.TransCmp cmp] {start : Option α} {leaves : List (Leaf α)}

theorem notBefore (chained : Chained cmp start leaves) :
    ∀ item ∈ leaves.flatMap Leaf.taken, NotBefore cmp start item := by
  induction chained with
  | nil => simp
  | @cons leaf later cut ends follows ih =>
      intro item member
      rw [List.flatMap_cons, List.mem_append] at member
      rcases member with member | member
      · exact cut.notBefore member
      · cases next : leaf.next with
        | none =>
            rw [ends next] at member
            cases member
        | some place =>
            intro first begins
            exact Std.TransCmp.isGE_trans (ih item member place next)
              (cut.next_notBefore next first begins)

theorem sorted (chained : Chained cmp start leaves) :
    (leaves.flatMap Leaf.taken).Pairwise fun left right => cmp left right = .lt := by
  induction chained with
  | nil => exact .nil
  | @cons leaf later cut ends follows ih =>
      rw [List.flatMap_cons, List.pairwise_append]
      refine ⟨cut.sorted_taken, ih, fun left taken right member => ?_⟩
      cases next : leaf.next with
      | none =>
          rw [ends next] at member
          cases member
      | some place =>
          have behind := follows.notBefore right member place next
          exact Std.TransCmp.lt_of_lt_of_isLE (cut.taken_lt_next next taken)
            (Std.OrientedCmp.isLE_of_isGE behind)

theorem complete (chained : Chained cmp start leaves) (finished : Finished leaves)
    (placed : NotBefore cmp start item) (stays : ∀ leaf ∈ leaves, item ∈ leaf.listed) :
    item ∈ leaves.flatMap Leaf.taken := by
  induction chained with
  | nil =>
      obtain ⟨leaf, last, _⟩ := finished
      cases last
  | @cons leaf later cut ends follows ih =>
      rw [List.flatMap_cons, List.mem_append]
      by_cases taken : item ∈ leaf.taken
      · exact .inl taken
      · obtain ⟨place, next, behind⟩ := cut.left_over (stays leaf List.mem_cons_self) placed taken
        refine .inr (ih ?_ ?_ fun other member => stays other (List.mem_cons_of_mem leaf member))
        · obtain ⟨last, found, done⟩ := finished
          cases later with
          | nil =>
              cases found
              cases next.symm.trans done
          | cons second rest => exact ⟨last, found, done⟩
        · intro other same
          cases next.symm.trans same
          exact behind

/-- The place of a page is not in front of where the pages begin, and it lies behind all items
of the pages before it. -/
theorem at_leaf {before after : List (Leaf α)} {leaf : Leaf α}
    (chained : Chained cmp start (before ++ leaf :: after)) :
    leaf.Cut cmp ∧ (∀ first ∈ start, ∃ place ∈ leaf.start, (cmp place first).isGE = true) ∧
      ∀ item ∈ before.flatMap Leaf.taken, ∃ place ∈ leaf.start, cmp item place = .lt := by
  induction before generalizing start with
  | nil =>
      cases chained with
      | cons cut ends follows =>
          refine ⟨cut, fun first begins => ⟨first, begins, ?_⟩, by simp⟩
          have self : cmp first first = .eq := Std.ReflCmp.compare_self
          rw [self]
          rfl
  | cons page others ih =>
      cases chained with
      | cons cut ends follows =>
          obtain ⟨cutLeaf, placed, behind⟩ := ih follows
          cases next : page.next with
          | none => exact absurd (ends next) (by simp)
          | some middle =>
              obtain ⟨place, begins, later⟩ := placed middle next
              refine ⟨cutLeaf, fun first member => ⟨place, begins, ?_⟩, fun item member => ?_⟩
              · exact Std.TransCmp.isGE_trans later (cut.next_notBefore next first member)
              · rw [List.flatMap_cons, List.mem_append] at member
                rcases member with member | member
                · exact ⟨place, begins, Std.TransCmp.lt_of_lt_of_isLE (cut.taken_lt_next next member)
                    (Std.OrientedCmp.isLE_of_isGE later)⟩
                · exact behind item member

/-- A page is the last one exactly when nothing that is listed lies further on. -/
theorem next_eq_none_iff {before after : List (Leaf α)} {leaf : Leaf α}
    (chained : Chained cmp start (before ++ leaf :: after)) :
    leaf.next = none ↔ ¬ ∃ item ∈ leaf.listed, NotBefore cmp leaf.start item ∧
      ∀ taken ∈ (before ++ [leaf]).flatMap Leaf.taken, cmp taken item = .lt := by
  obtain ⟨cut, _, behind⟩ := chained.at_leaf
  rw [cut.next_eq_none_iff]
  refine not_congr (exists_congr fun item => and_congr_right fun _ => and_congr_right fun placed => ?_)
  simp only [List.flatMap_append, List.flatMap_cons, List.flatMap_nil, List.append_nil, List.mem_append]
  constructor
  · rintro further taken (earlier | here)
    · obtain ⟨place, begins, before⟩ := behind taken earlier
      exact Std.TransCmp.lt_of_lt_of_isLE before (Std.OrientedCmp.isLE_of_isGE (placed place begins))
    · exact further taken here
  · intro further taken here
    exact further taken (.inr here)

end Chained

end Eamerald.Foundation
