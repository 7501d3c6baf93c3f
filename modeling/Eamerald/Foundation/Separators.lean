import Mathlib

/-! Reading back texts that were joined with a separator: the part before the
first separator is determined when it contains none, and likewise the part
after the last one. -/

set_option autoImplicit false

namespace Eamerald.Foundation

variable {α : Type} {separator : α} {second : List α} {others : List α}

theorem append_cons_inj_left {first rest : List α}
    (firstFree : separator ∉ first) (secondFree : separator ∉ second) :
    first ++ separator :: rest = second ++ separator :: others ↔ first = second ∧ rest = others := by
  constructor
  · intro same
    induction first generalizing second with
    | nil =>
        cases second with
        | nil => exact ⟨rfl, by simpa using same⟩
        | cons head tail =>
            have present : separator = head := by simpa using congrArg List.head? same
            exact False.elim (secondFree (present ▸ List.mem_cons_self))
    | cons head tail ih =>
        cases second with
        | nil =>
            have present : head = separator := by simpa using congrArg List.head? same
            exact False.elim (firstFree (present ▸ List.mem_cons_self))
        | cons other more =>
            simp only [List.cons_append, List.cons.injEq] at same
            have parts := ih (fun member => firstFree (List.mem_cons_of_mem _ member))
              (fun member => secondFree (List.mem_cons_of_mem _ member)) same.2
            exact ⟨by rw [same.1, parts.1], parts.2⟩
  · intro parts
    rw [parts.1, parts.2]

theorem append_cons_inj_right {first rest : List α}
    (restFree : separator ∉ rest) (othersFree : separator ∉ others) :
    first ++ separator :: rest = second ++ separator :: others ↔ first = second ∧ rest = others := by
  rw [← List.reverse_inj]
  simp only [List.reverse_append, List.reverse_cons, List.append_assoc, List.singleton_append]
  rw [append_cons_inj_left (by simpa using restFree) (by simpa using othersFree)]
  simp [and_comm]

/-- Cut at the same separator, the second text may go on behind the cut. -/
theorem append_cons_eq_iff {first rest : List α} (firstFree : separator ∉ first) :
    first ++ separator :: rest = second ++ separator :: others ↔ (first = second ∧ rest = others) ∨
        ∃ more, second = first ++ separator :: more ∧ rest = more ++ separator :: others := by
  constructor
  · intro same
    rcases List.append_eq_append_iff.mp same with ⟨middle, whole, tail⟩ | ⟨middle, whole, tail⟩
    · cases middle with
      | nil => exact .inl ⟨by simpa using whole.symm, by simpa using tail⟩
      | cons head middle =>
          simp only [List.cons_append, List.cons.injEq] at tail
          exact .inr ⟨middle, by rw [whole, tail.1], tail.2⟩
    · cases middle with
      | nil => exact .inl ⟨by simpa using whole, by simpa using tail.symm⟩
      | cons head middle =>
          simp only [List.cons_append, List.cons.injEq] at tail
          exact False.elim (firstFree (by rw [whole, tail.1]; simp))
  · intro readings
    rcases readings with ⟨rfl, rfl⟩ | ⟨more, rfl, rfl⟩
    · rfl
    · simp

end Eamerald.Foundation
