import Mathlib

/-! Loops over a collection that comes in any order. -/

set_option autoImplicit false

namespace Eamerald.Foundation

section First

variable {α β : Type} {items : List α}

theorem find?_isSome_of_perm {order : List α} (kind : α → Bool) (same : order.Perm items) :
    (order.find? kind).isSome = (items.find? kind).isSome := by
  rw [Bool.eq_iff_iff, List.find?_isSome, List.find?_isSome]
  exact exists_congr fun item => and_congr_left fun _ => same.mem_iff

theorem find?_first {item : α} {order : List α} {kind : α → Bool} (here : kind item = true) :
    (item :: order).find? kind = some item :=
  List.find?_cons_of_pos here

/-- What is read from the first item of a kind does not depend on the order exactly if all items of
the kind agree on it. -/
theorem find?_order_free_iff [DecidableEq α] (kind : α → Bool) (read : α → β) :
    (∀ order other : List α, order.Perm items → other.Perm items →
      (order.find? kind).map read = (other.find? kind).map read) ↔
      ∀ item ∈ items, ∀ other ∈ items, kind item = true → kind other = true → read item = read other := by
  constructor
  · intro free item member other memberToo here hereToo
    have same := free (item :: items.erase item) (other :: items.erase other)
      (List.perm_cons_erase member).symm (List.perm_cons_erase memberToo).symm
    rw [find?_first here, find?_first hereToo] at same
    exact Option.some.inj same
  · intro agree order other perm permToo
    have both := (find?_isSome_of_perm kind perm).trans (find?_isSome_of_perm kind permToo).symm
    cases found : order.find? kind with
    | none =>
        rw [found] at both
        have absent : other.find? kind = none := by simpa using both.symm
        rw [absent]
    | some item =>
        rw [found] at both
        obtain ⟨second, foundToo⟩ := Option.isSome_iff_exists.mp both.symm
        rw [foundToo]
        refine congrArg some (agree item ?_ second ?_ (List.find?_some found) (List.find?_some foundToo))
        · exact perm.mem_iff.mp (List.mem_of_find?_eq_some found)
        · exact permToo.mem_iff.mp (List.mem_of_find?_eq_some foundToo)

end First

section Makers

/-- A barred item ends the run, and so does one that meets a thing made before it or breaks. -/
structure Makers (α F : Type) where
  looks : α → Set F
  makes : α → Set F
  barred : α → Prop
  breaks : α → Prop

variable {α F : Type} (makers : Makers α F)

namespace Makers

open Classical in
noncomputable def run : List α → Set F → Set F
  | [], made => made
  | item :: rest, made =>
      if makers.barred item ∨ (makers.looks item ∩ made).Nonempty then made
      else if makers.breaks item then made ∪ makers.makes item
      else run rest (made ∪ makers.makes item)

variable {makers} {item : α} {rest : List α} {made : Set F}

theorem run_stopped (stops : makers.barred item ∨ (makers.looks item ∩ made).Nonempty) :
    makers.run (item :: rest) made = made :=
  if_pos stops

theorem run_broken (goes : ¬ (makers.barred item ∨ (makers.looks item ∩ made).Nonempty))
    (breaks : makers.breaks item) : makers.run (item :: rest) made = made ∪ makers.makes item := by
  rw [run, if_neg goes, if_pos breaks]

theorem run_goes_on (goes : ¬ (makers.barred item ∨ (makers.looks item ∩ made).Nonempty))
    (whole : ¬ makers.breaks item) :
    makers.run (item :: rest) made = makers.run rest (made ∪ makers.makes item) := by
  rw [run, if_neg goes, if_neg whole]

theorem subset_run (rest : List α) (made : Set F) : made ⊆ makers.run rest made := by
  induction rest generalizing made with
  | nil => exact Set.Subset.rfl
  | cons item rest ih =>
      unfold run
      split
      · exact Set.Subset.rfl
      · split
        · exact Set.subset_union_left
        · exact Set.subset_union_left.trans (ih _)

theorem run_subset {total : Set F} (within : ∀ item ∈ rest, ¬ makers.barred item → makers.makes item ⊆ total)
    (start : made ⊆ total) : makers.run rest made ⊆ total := by
  induction rest generalizing made with
  | nil => exact start
  | cons item rest ih =>
      obtain ⟨here, later⟩ := List.forall_mem_cons.mp within
      unfold run
      split
      · exact start
      · rename_i goes
        have added : made ∪ makers.makes item ⊆ total :=
          Set.union_subset start (here (not_or.mp goes).1)
        split
        · exact added
        · exact ih later added

variable {items : List α} {total : Set F}

/-- The item makes everything, if it ends the run for itself or for another item. -/
def Decisive (makers : Makers α F) (items : List α) (total : Set F) : Prop :=
  ∀ item ∈ items, (makers.breaks item ∨
    ∃ other ∈ items, other ≠ item ∧ (makers.looks other ∩ makers.makes item).Nonempty) →
      makers.makes item = total

section Conditions

variable [DecidableEq α] (free : ∀ order : List α, order.Perm items → makers.run order ∅ = total)

include free

theorem not_barred_of_free (some : total.Nonempty) : ∀ item ∈ items, ¬ makers.barred item := by
  intro item member barred
  have first := free (item :: items.erase item) (List.perm_cons_erase member).symm
  rw [run_stopped (.inl barred)] at first
  exact some.ne_empty first.symm

theorem decisive_of_free (unbarred : ∀ item ∈ items, ¬ makers.barred item) : makers.Decisive items total := by
  intro item member ends
  have goes : ¬ (makers.barred item ∨ (makers.looks item ∩ ∅).Nonempty) := by
    simp [unbarred item member]
  by_cases breaks : makers.breaks item
  · have first := free (item :: items.erase item) (List.perm_cons_erase member).symm
    rwa [run_broken goes breaks, Set.empty_union] at first
  · obtain ⟨other, memberToo, apart, looks⟩ := ends.resolve_left breaks
    have later : other ∈ items.erase item := (List.mem_erase_of_ne apart).mpr memberToo
    have order : (item :: other :: (items.erase item).erase other).Perm items :=
      ((List.perm_cons_erase later).symm.cons item).trans (List.perm_cons_erase member).symm
    have first := free _ order
    rw [run_goes_on goes breaks, Set.empty_union, run_stopped (.inr looks)] at first
    exact first

end Conditions

/-- If only items that make everything end a run, then everything is made. Of those that went before,
none makes everything. -/
theorem run_eq_total {before rest : List α} (distinct : (before ++ rest).Nodup)
    (within : ∀ item ∈ before ++ rest, ¬ makers.barred item → makers.makes item ⊆ total)
    (covers : (∀ item ∈ before ++ rest, ¬ makers.barred item ∧ ¬ makers.breaks item) →
      ∀ thing ∈ total, ∃ item ∈ before ++ rest, thing ∈ makers.makes item)
    (unbarred : ∀ item ∈ before ++ rest, ¬ makers.barred item)
    (decisive : makers.Decisive (before ++ rest) total)
    (earlier : ∀ item ∈ before, makers.makes item ≠ total) :
    makers.run rest {thing | ∃ item ∈ before, thing ∈ makers.makes item} = total := by
  induction rest generalizing before with
  | nil =>
      rw [List.append_nil] at *
      have whole : ∀ item ∈ before, ¬ makers.barred item ∧ ¬ makers.breaks item := fun item member =>
        ⟨unbarred item member, fun breaks => earlier item member (decisive item member (.inl breaks))⟩
      refine Set.Subset.antisymm ?_ fun thing due => covers whole thing due
      rintro thing ⟨item, member, made⟩
      exact within item member (unbarred item member) made
  | cons item rest ih =>
      have here : item ∈ before ++ item :: rest := List.mem_append_right _ List.mem_cons_self
      have fresh : item ∉ before := fun member =>
        (List.nodup_append.mp distinct).2.2 item member item List.mem_cons_self rfl
      have made : {thing | ∃ other ∈ before, thing ∈ makers.makes other} ∪ makers.makes item =
          {thing | ∃ other ∈ before ++ [item], thing ∈ makers.makes other} := by
        ext thing
        simp [or_and_right, exists_or]
      -- an item that is seen by this one makes everything, and there is none before
      have goes : ¬ (makers.barred item ∨
          (makers.looks item ∩ {thing | ∃ other ∈ before, thing ∈ makers.makes other}).Nonempty) := by
        rintro (barred | ⟨thing, looked, other, member, makes⟩)
        · exact unbarred item here barred
        · refine earlier other member (decisive other (List.mem_append_left _ member) (.inr ?_))
          exact ⟨item, here, fun same => fresh (same ▸ member), thing, looked, makes⟩
      have bounded : {thing | ∃ other ∈ before ++ [item], thing ∈ makers.makes other} ⊆ total := by
        rintro thing ⟨other, member, makes⟩
        have listed : other ∈ before ++ item :: rest := by
          rw [List.append_cons]
          exact List.mem_append_left _ member
        exact within other listed (unbarred other listed) makes
      by_cases all : makers.makes item = total
      · have full : {thing | ∃ other ∈ before ++ [item], thing ∈ makers.makes other} = total := by
          refine Set.Subset.antisymm bounded ?_
          rw [← made, all]
          exact Set.subset_union_right
        by_cases breaks : makers.breaks item
        · rw [run_broken goes breaks, made, full]
        · rw [run_goes_on goes breaks, made, full]
          refine Set.Subset.antisymm (run_subset (fun other member => ?_) Set.Subset.rfl) (subset_run _ _)
          exact within other (List.mem_append_right _ (List.mem_cons_of_mem _ member))
      · have whole : ¬ makers.breaks item := fun breaks => all (decisive item here (.inl breaks))
        rw [run_goes_on goes whole, made]
        rw [List.append_cons] at distinct within covers unbarred decisive
        refine ih distinct within covers unbarred decisive ?_
        simp only [List.mem_append, List.mem_singleton]
        rintro other (member | rfl)
        · exact earlier other member
        · exact all

/-- All orders make the same exactly if nothing is barred where there is something to make, and an item
that ends a run makes everything. -/
theorem run_order_free_iff [DecidableEq α] (distinct : items.Nodup)
    (within : ∀ item ∈ items, ¬ makers.barred item → makers.makes item ⊆ total)
    (covers : (∀ item ∈ items, ¬ makers.barred item ∧ ¬ makers.breaks item) →
      ∀ thing ∈ total, ∃ item ∈ items, thing ∈ makers.makes item) :
    (∀ order : List α, order.Perm items → makers.run order ∅ = total) ↔
      (total.Nonempty → (∀ item ∈ items, ¬ makers.barred item) ∧ makers.Decisive items total) := by
  constructor
  · intro free some
    have unbarred := not_barred_of_free free some
    exact ⟨unbarred, decisive_of_free free unbarred⟩
  · intro condition order perm
    rcases total.eq_empty_or_nonempty with rfl | some
    · refine Set.subset_empty_iff.mp (run_subset (fun item member => ?_) Set.Subset.rfl)
      exact within item (perm.mem_iff.mp member)
    · obtain ⟨unbarred, decisive⟩ := condition some
      have start := @run_eq_total _ _ makers total [] order
      simp only [List.nil_append, Decisive, perm.mem_iff] at start
      simpa using start (perm.nodup_iff.mpr distinct) within covers unbarred decisive (by simp)

end Makers

end Makers

end Eamerald.Foundation
