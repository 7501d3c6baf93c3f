import Mathlib

/-! Cursor scans over ordered maps whose keys are lists. Keys sharing a prefix
are neighbours in lexicographic order, so a cursor placed at the prefix itself
meets all of them before it meets any other key. -/

set_option autoImplicit false

namespace Eamerald.Foundation

section Lists

variable {α : Type}

theorem takeWhile_eq_filter {items : List α} {accepted : α → Bool}
    (closed : items.Pairwise fun left right => accepted right → accepted left) :
    items.takeWhile accepted = items.filter accepted := by
  induction items with
  | nil => rfl
  | cons item rest ih =>
      rw [List.pairwise_cons] at closed
      cases choice : accepted item with
      | true => simp [choice, ih closed.2]
      | false =>
          have rejected : ∀ later ∈ rest, accepted later = false := by
            intro later member
            cases other : accepted later with
            | false => rfl
            | true => rw [closed.1 later member other] at choice; cases choice
          simpa [choice] using rejected

theorem dropWhile_eq_filter_not {items : List α} {skipped : α → Bool}
    (closed : items.Pairwise fun left right => skipped right → skipped left) :
    items.dropWhile skipped = items.filter fun item => !skipped item := by
  induction items with
  | nil => rfl
  | cons item rest ih =>
      rw [List.pairwise_cons] at closed
      cases choice : skipped item with
      | true => simp [choice, ih closed.2]
      | false =>
          have kept : ∀ later ∈ rest, (!skipped later) = true := by
            intro later member
            cases other : skipped later with
            | false => rfl
            | true => rw [closed.1 later member other] at choice; cases choice
          rw [List.dropWhile_cons_of_neg (by simp [choice]),
            List.filter_cons_of_pos (by simp [choice]), List.filter_eq_self.mpr kept]

end Lists

section Order

variable {α : Type} [Ord α] [Std.LawfulEqOrd α]

theorem prefix_isLE {start key : List α} (begins : start <+: key) : (compare start key).isLE := by
  induction start generalizing key with
  | nil => exact List.isLE_compare_nil_left
  | cons head tail ih =>
      obtain ⟨rest, rfl⟩ := begins
      have shorter := ih (List.prefix_append tail rest)
      simpa [List.compare_cons_cons] using shorter

variable [Std.TransOrd α]

theorem prefix_of_between {start lower upper : List α}
    (above : (compare start lower).isLE) (below : compare lower upper = .lt)
    (begins : start <+: upper) : start <+: lower := by
  induction start generalizing lower upper with
  | nil => exact List.nil_prefix
  | cons head tail ih =>
      obtain ⟨rest, rfl⟩ := begins
      cases lower with
      | nil => simp at above
      | cons first others =>
          rw [List.compare_cons_cons] at above
          rw [List.cons_append, List.compare_cons_cons] at below
          cases order : compare head first with
          | lt =>
              -- The key between would have to be both above and below the shared head.
              have reversed : compare first head = .gt := by
                rw [Std.OrientedOrd.eq_swap (a := first), order]; rfl
              simp [reversed] at below
          | gt => simp [order] at above
          | eq =>
              cases Std.LawfulEqOrd.compare_eq_iff_eq.mp order
              simp only [Std.ReflOrd.compare_self] at above below
              rw [List.cons_prefix_cons]
              exact ⟨rfl, ih above below (List.prefix_append tail rest)⟩

end Order

section Scan

variable {α β : Type} [Ord α] [Std.TransOrd α] {leading : List α} {start : List α}
  (map : Std.ExtTreeMap (List α) β)

def seek (map : Std.ExtTreeMap (List α) β) (start : List α) : List (List α × β) :=
  map.toList.dropWhile fun entry => decide (compare entry.1 start = .lt)

/-- The entries a cursor visits from `start` on, up to the first key without the prefix. -/
def scan [DecidableEq α] (map : Std.ExtTreeMap (List α) β) (start leading : List α) :
    List (List α × β) :=
  (seek map start).takeWhile fun entry => decide (leading <+: entry.1)

theorem mem_toList_of_mem_scan [DecidableEq α] {map : Std.ExtTreeMap (List α) β} {entry : List α × β} (member : entry ∈ scan map start leading) :
    entry ∈ map.toList :=
  (List.dropWhile_sublist _).subset ((List.takeWhile_sublist _).subset member)

theorem increasing_keys : map.toList.Pairwise fun left right => compare left.1 right.1 = .lt :=
  Std.ExtTreeMap.ordered_keys_toList

theorem seek_eq_filter (start : List α) :
    seek map start = map.toList.filter fun entry => !decide (compare entry.1 start = .lt) := by
  apply dropWhile_eq_filter_not
  refine (increasing_keys map).imp fun {left right} increasing below => ?_
  exact decide_eq_true (Std.TransCmp.lt_trans increasing (of_decide_eq_true below))

variable [Std.LawfulEqOrd α] [DecidableEq α]

/-- A scan that starts at or after its prefix returns every key with the prefix
from its start on, and nothing else. -/
theorem scan_eq_filter (inside : (compare leading start).isLE) :
    scan map start leading = map.toList.filter fun entry =>
      decide (compare entry.1 start ≠ .lt ∧ leading <+: entry.1) := by
  unfold scan
  rw [seek_eq_filter, takeWhile_eq_filter, List.filter_filter]
  · congr 1
    funext entry
    simp [Bool.and_comm]
  · -- Everything the cursor still visits lies between the prefix and a key with it.
    refine ((increasing_keys map).filter _).imp_of_mem ?_
    intro left right leftMember _ increasing begins
    have notBelow : compare left.1 start ≠ .lt := by simpa using (List.mem_filter.mp leftMember).2
    have above : (compare start left.1).isLE := by
      rw [Std.OrientedOrd.eq_swap (a := start), Ordering.isLE_swap]
      exact Ordering.isGE_iff_ne_lt.mpr notBelow
    exact decide_eq_true (prefix_of_between (Std.TransCmp.isLE_trans inside above) increasing
      (of_decide_eq_true begins))

theorem scan_self (leading : List α) :
    scan map leading leading = map.toList.filter fun entry => decide (leading <+: entry.1) := by
  rw [scan_eq_filter map (prefix_isLE (List.prefix_refl leading))]
  congr 1
  funext entry
  refine decide_eq_decide.mpr ⟨fun both => both.2, fun begins => ⟨?_, begins⟩⟩
  have ordered := prefix_isLE begins
  rw [Std.OrientedOrd.eq_swap (a := leading), Ordering.isLE_swap] at ordered
  exact Ordering.isGE_iff_ne_lt.mp ordered

theorem scan_of_prefix (begins : leading <+: start) : scan map start leading =
      (scan map leading leading).filter fun entry => decide (compare entry.1 start ≠ .lt) := by
  rw [scan_eq_filter map (prefix_isLE begins), scan_self, List.filter_filter]
  congr 1
  funext entry
  simp

theorem scan_of_visited {map : Std.ExtTreeMap (List α) β}
    {before after : List (List α × β)} {entry : List α × β}
    (split : scan map leading leading = before ++ entry :: after) :
    scan map entry.1 leading = entry :: after := by
  have visited : entry ∈ scan map leading leading := by simp [split]
  have begins : leading <+: entry.1 := by
    rw [scan_self, List.mem_filter] at visited
    exact of_decide_eq_true visited.2
  have increasing := (increasing_keys map).filter fun entry => decide (leading <+: entry.1)
  rw [← scan_self, split, List.pairwise_append, List.pairwise_cons] at increasing
  obtain ⟨_, ⟨later, _⟩, earlier⟩ := increasing
  have within := scan_of_prefix map begins
  have dropped : (before.filter fun other => decide (compare other.1 entry.1 ≠ .lt)) = [] := by
    rw [List.filter_eq_nil_iff]
    intro other member
    simp [earlier other member entry List.mem_cons_self]
  have kept : (after.filter fun other => decide (compare other.1 entry.1 ≠ .lt)) = after := by
    rw [List.filter_eq_self]
    intro other member
    have behind := later other member
    rw [Std.OrientedOrd.eq_swap, Ordering.swap_eq_lt] at behind
    simp [behind]
  rw [within, split, List.filter_append, dropped, List.filter_cons_of_pos (by simp), kept,
    List.nil_append]

theorem head_seek_any (leading : List α) :
    ((seek map leading).head?.any fun entry => decide (leading <+: entry.1)) =
      map.toList.any fun entry => decide (leading <+: entry.1) := by
  have present : (map.toList.any fun entry => decide (leading <+: entry.1)) = true ↔
      scan map leading leading ≠ [] := by
    simp [scan_self, List.filter_eq_nil_iff]
  rw [Bool.eq_iff_iff, present, scan]
  cases seek map leading with
  | nil => simp
  | cons entry rest =>
      cases begins : decide (leading <+: entry.1) <;> simp_all

end Scan

end Eamerald.Foundation
