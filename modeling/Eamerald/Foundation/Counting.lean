import Mathlib

/-! Counters that a loop keeps while it runs over a list. -/

set_option autoImplicit false

namespace Eamerald.Foundation

section Loops

variable {σ α A : Type} {step : σ → α → σ}

theorem foldl_iterate {next : A → A} (read : σ → A) (kind : α → Bool)
    (moves : ∀ state item, read (step state item) = if kind item then next (read state) else read state)
    (items : List α) (state : σ) : read (items.foldl step state) = next^[items.countP kind] (read state) := by
  induction items generalizing state with
  | nil => rfl
  | cons item rest ih =>
      rw [List.foldl_cons, ih, moves, List.countP_cons]
      split
      · rfl
      · rfl

theorem foldl_counter (read : σ → Int32) (counted : α → Bool)
    (raised : ∀ state item, read (step state item) = read state + if counted item then 1 else 0)
    (items : List α) (state : σ) :
    read (items.foldl step state) = read state + Int32.ofNat (items.countP counted) := by
  induction items generalizing state with
  | nil => simp
  | cons item rest ih =>
      rw [List.foldl_cons, ih, raised, List.countP_cons]
      split
      · rw [Int32.ofNat_add, Int32.add_assoc, Int32.add_comm 1]
        rfl
      · rw [Int32.add_zero, Nat.add_zero]

theorem ofNat_eq_zero_iff (number : Nat) : Int32.ofNat number = 0 ↔ 2 ^ 32 ∣ number := by
  rw [← Int32.toInt_inj, Int32.toInt_ofNat', Int32.toInt_zero, ← Int.dvd_iff_bmod_eq_zero]
  exact Int.natCast_dvd_natCast

end Loops

section Lists

variable {α β : Type} {items : List α} {kind : α → Bool}

theorem countP_and_eq_iff {other : α → Bool} :
    items.countP (fun item => other item && kind item) = items.countP kind ↔
      ∀ item ∈ items, kind item = true → other item = true := by
  rw [← List.countP_filter, List.countP_eq_length_filter (p := kind), List.countP_eq_length]
  simp

/-- Counting by key counts everything, if each key is listed once. -/
theorem sum_countP_fibers [DecidableEq β] (key : α → β) {keys : List β} (distinct : keys.Nodup)
    (listed : ∀ item ∈ items, kind item = true → key item ∈ keys) :
    (keys.map fun place => items.countP fun item => kind item && decide (key item = place)).sum =
      items.countP kind := by
  induction items with
  | nil => simp
  | cons item rest ih =>
      have counted := ih fun other member => listed other (List.mem_cons_of_mem _ member)
      simp only [List.countP_cons, List.sum_map_add, counted]
      congr 1
      cases here : kind item with
      | false => simp
      | true =>
          -- the item is counted under its own key alone, and that key occurs once
          have once := List.count_eq_one_of_mem distinct (listed item List.mem_cons_self here)
          have alone := List.sum_map_eq_nsmul_single (l := keys) (key item)
            (fun place => if key item = place then 1 else 0) fun place other _ => if_neg other.symm
          rw [once] at alone
          simpa using alone

end Lists

end Eamerald.Foundation
