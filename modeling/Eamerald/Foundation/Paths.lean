import Mathlib

/-! Slash-separated paths as texts: their lexical cleaning, the joining of elements, and the last
element, which joining a name to a directory preserves. -/

set_option autoImplicit false

namespace Eamerald.Foundation.Path

/-- One element of a path after those kept so far, the last one first. -/
def push (rooted : Bool) (kept : List (List Char)) (element : List Char) : List (List Char) :=
  if element = [] ∨ element = ['.'] then kept
  else if element = ['.', '.'] then
    match kept with
    | [] => if rooted then [] else [element]
    | last :: before => if last = ['.', '.'] then element :: kept else before
  else element :: kept

/-- The shortest path that is lexically the same. -/
def clean (path : List Char) : List Char :=
  let rooted := path.head? = some '/'
  let kept := ((path.splitOn '/').foldl (push rooted) []).reverse
  let text := ['/'].intercalate kept
  if rooted then '/' :: text else if text = [] then ['.'] else text

/-- The elements joined and cleaned, from the first one that is not empty on. -/
def join (elements : List (List Char)) : List Char :=
  match elements.dropWhile (· = []) with
  | [] => []
  | kept => clean (['/'].intercalate kept)

def base (path : List Char) : List Char :=
  if path = [] then ['.']
  else
    let last := ((path.reverse.dropWhile (· = '/')).takeWhile (· ≠ '/')).reverse
    if last = [] then ['/'] else last

def dir (path : List Char) : List Char :=
  clean (path.reverse.dropWhile (· ≠ '/')).reverse

structure IsName (name : List Char) : Prop where
  nonempty : name ≠ []
  not_dot : name ≠ ['.']
  not_dots : name ≠ ['.', '.']
  free : '/' ∉ name

instance (name : List Char) : Decidable (IsName name) :=
  decidable_of_iff (name ≠ [] ∧ name ≠ ['.'] ∧ name ≠ ['.', '.'] ∧ '/' ∉ name)
    ⟨fun ⟨nonempty, notDot, notDots, free⟩ => ⟨nonempty, notDot, notDots, free⟩,
      fun name => ⟨name.nonempty, name.not_dot, name.not_dots, name.free⟩⟩

def Opens (before : List Char) : Prop := before = [] ∨ ∃ directory, before = directory ++ ['/']

theorem Opens.append {before : List Char} (first : List Char) (opens : Opens before) :
    Opens (first ++ '/' :: before) := by
  rcases opens with rfl | ⟨directory, rfl⟩
  · exact .inr ⟨first, rfl⟩
  · exact .inr ⟨first ++ '/' :: directory, by simp⟩

theorem intercalate_concat (kept : List (List Char)) (name : List Char) :
    ∃ before, Opens before ∧ ['/'].intercalate (kept ++ [name]) = before ++ name := by
  induction kept with
  | nil => exact ⟨[], .inl rfl, by simp⟩
  | cons first rest ih =>
      obtain ⟨before, opens, same⟩ := ih
      refine ⟨first ++ '/' :: before, opens.append first, ?_⟩
      rw [List.cons_append, List.intercalate_cons_of_ne_nil (by simp), same]
      simp

section Names

variable {name : List Char} (proper : IsName name)

include proper

theorem push_name (rooted : Bool) (kept : List (List Char)) : push rooted kept name = name :: kept := by
  unfold push
  rw [if_neg (not_or.mpr ⟨proper.nonempty, proper.not_dot⟩), if_neg proper.not_dots]

theorem base_append {before : List Char} (opens : Opens before) : base (before ++ name) = name := by
  have others : ∀ char ∈ name.reverse, char ≠ '/' := fun char member same =>
    proper.free (same ▸ List.mem_reverse.mp member)
  have kept : (name.reverse ++ before.reverse).dropWhile (· = '/') = name.reverse ++ before.reverse := by
    cases shape : name.reverse with
    | nil => exact absurd (List.reverse_eq_nil_iff.mp shape) proper.nonempty
    | cons char rest => simp [others char (shape ▸ List.mem_cons_self)]
  have taken : (name.reverse ++ before.reverse).takeWhile (· ≠ '/') = name.reverse := by
    rw [List.takeWhile_append_of_pos (by simpa using others)]
    rcases opens with rfl | ⟨directory, rfl⟩ <;> simp
  unfold base
  rw [if_neg (by simp [proper.nonempty]), List.reverse_append, kept, taken, List.reverse_reverse,
    if_neg proper.nonempty]

theorem base_clean {path : List Char} {elements : List (List Char)}
    (split : path.splitOn '/' = elements ++ [name]) : base (clean path) = name := by
  obtain ⟨before, opens, text⟩ :=
    intercalate_concat (elements.foldl (push (path.head? = some '/')) []).reverse name
  have kept : ((path.splitOn '/').foldl (push (path.head? = some '/')) []).reverse =
      (elements.foldl (push (path.head? = some '/')) []).reverse ++ [name] := by
    rw [split, List.foldl_append, List.foldl_cons, List.foldl_nil, push_name proper, List.reverse_cons]
  unfold clean
  simp only [kept, text]
  split
  · exact base_append proper (opens.append [])
  · rw [if_neg (by simp [proper.nonempty])]
    exact base_append proper opens

theorem base_join (directory : List Char) : base (join [directory, name]) = name := by
  have last : name.splitOn '/' = [name] := List.splitOn_eq_singleton proper.free
  by_cases empty : directory = []
  · have joined : join [directory, name] = clean name := by simp [join, empty, proper.nonempty]
    have split : name.splitOn '/' = [] ++ [name] := last
    rw [joined]
    exact base_clean proper split
  · have joined : join [directory, name] = clean (directory ++ '/' :: name) := by simp [join, empty]
    rw [joined]
    exact base_clean proper (by rw [List.splitOn_append_cons_self, last])

end Names

example : clean "a/../../b//./c".toList = "../b/c".toList := by decide
example : base "a/b/".toList = "b".toList := by decide

end Eamerald.Foundation.Path
