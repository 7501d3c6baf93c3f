import Mathlib

/-! Listings that come in pages. A page is asked for by a token and names the token of
the page behind it. The blank token asks for the first page, and as the token of the
next page it says that there is none. -/

set_option autoImplicit false

namespace Eamerald.Foundation

variable {τ ε α β : Type} {blank : τ} {fetch : τ → Except ε (List α × τ)}

/-- Following the tokens from one on yields these items. -/
inductive Enumerates (blank : τ) (fetch : τ → Except ε (List α × τ)) : τ → List α → Prop where
  | last {token : τ} {items : List α} (fetched : fetch token = .ok (items, blank)) :
      Enumerates blank fetch token items
  | more {token next : τ} {items rest : List α} (fetched : fetch token = .ok (items, next))
      (goes : next ≠ blank) (later : Enumerates blank fetch next rest) :
      Enumerates blank fetch token (items ++ rest)

theorem Enumerates.unique {token : τ} {items others : List α}
    (first : Enumerates blank fetch token items) (second : Enumerates blank fetch token others) :
    items = others := by
  induction first generalizing others with
  | last fetched =>
      cases second with
      | last again =>
          cases fetched.symm.trans again
          rfl
      | more again goes _ =>
          cases fetched.symm.trans again
          exact absurd rfl goes
  | more fetched goes _ ih =>
      cases second with
      | last again =>
          cases fetched.symm.trans again
          exact absurd rfl goes
      | more again _ later =>
          cases fetched.symm.trans again
          rw [ih later]

/-- A page takes rows from those that are left, and its token is that of the row behind. -/
def Cuts (blank : τ) (token : β → τ) (emit : β → Option α) (left : List β) (page : List α × τ) : Prop :=
  ∃ taken rest, left = taken ++ rest ∧ page.1 = taken.filterMap emit ∧
    (rest = [] ∧ page.2 = blank ∨ ∃ next more, taken ≠ [] ∧ rest = next :: more ∧ page.2 = token next)

theorem enumerates_of_cuts {rows : List β} {token : β → τ} {emit : β → Option α}
    (tokens : ∀ row ∈ rows, token row ≠ blank)
    (first : ∃ page, fetch blank = .ok page ∧ Cuts blank token emit rows page)
    (resumes : ∀ before row after, rows = before ++ row :: after →
      ∃ page, fetch (token row) = .ok page ∧ Cuts blank token emit (row :: after) page) :
    Enumerates blank fetch blank (rows.filterMap emit) := by
  -- By induction on the number of rows that are left behind a token.
  have continues (count : Nat) : ∀ before left start, left.length = count → rows = before ++ left →
      (∃ page, fetch start = .ok page ∧ Cuts blank token emit left page) →
      Enumerates blank fetch start (left.filterMap emit) := by
    induction count using Nat.strong_induction_on with
    | _ count ih =>
        rintro before left start size split ⟨⟨items, next⟩, fetched, taken, rest, rfl, shown, ends⟩
        dsimp only at shown ends
        subst shown
        rcases ends with ⟨rfl, rfl⟩ | ⟨row, more, some_taken, rfl, rfl⟩
        · rw [List.append_nil]
          exact .last fetched
        · rw [List.filterMap_append]
          have placed : rows = (before ++ taken) ++ row :: more := by
            rw [split, List.append_assoc]
          refine .more fetched (tokens row ?_) (ih _ ?_ (before ++ taken) (row :: more) _ rfl placed
            (resumes _ row more placed))
          · rw [placed]
            exact List.mem_append_right _ List.mem_cons_self
          · rw [← size, List.length_append]
            exact Nat.lt_add_of_pos_left (List.length_pos_of_ne_nil some_taken)
  exact continues rows.length [] rows blank rfl rfl first

end Eamerald.Foundation
