import Eamerald.Api.Messages

/-! Text functions of the Go standard library that the daemon uses. -/

set_option autoImplicit false

namespace Eamerald

def cut (separator : Char) : GoString → GoString × GoString × Bool
  | [] => ([], [], false)
  | char :: rest =>
      if char = separator then ([], rest, true)
      else (char :: (cut separator rest).1, (cut separator rest).2)

theorem cut_append {separator : Char} {first : GoString} (rest : GoString)
    (free : separator ∉ first) : cut separator (first ++ separator :: rest) = (first, rest, true) := by
  induction first with
  | nil => simp [cut]
  | cons char first ih =>
      obtain ⟨other, later⟩ := not_or.mp (mt List.mem_cons.mpr free)
      simp [cut, Ne.symm other, ih later]

theorem cut_of_not_mem {separator : Char} {text : GoString} (free : separator ∉ text) :
    cut separator text = (text, [], false) := by
  induction text with
  | nil => rfl
  | cons char text ih =>
      obtain ⟨other, later⟩ := not_or.mp (mt List.mem_cons.mpr free)
      simp [cut, Ne.symm other, ih later]

end Eamerald
