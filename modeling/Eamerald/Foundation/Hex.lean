import Mathlib

/-! Hexadecimal texts as bytes. The encoder writes lower-case digits; the decoder takes digits of
either case. -/

set_option autoImplicit false

namespace Eamerald.Foundation.Hex

section Digits

def IsDecimal (byte : UInt8) : Prop := 48 ≤ byte ∧ byte ≤ 57

def IsUpper (byte : UInt8) : Prop := 65 ≤ byte ∧ byte ≤ 70

def IsLower (byte : UInt8) : Prop := IsDecimal byte ∨ (97 ≤ byte ∧ byte ≤ 102)

def IsDigit (byte : UInt8) : Prop := IsLower byte ∨ IsUpper byte

instance : DecidablePred IsDecimal := fun byte => inferInstanceAs (Decidable (48 ≤ byte ∧ byte ≤ 57))

instance : DecidablePred IsUpper := fun byte => inferInstanceAs (Decidable (65 ≤ byte ∧ byte ≤ 70))

instance : DecidablePred IsLower :=
  fun byte => inferInstanceAs (Decidable (IsDecimal byte ∨ (97 ≤ byte ∧ byte ≤ 102)))

instance : DecidablePred IsDigit := fun byte => inferInstanceAs (Decidable (IsLower byte ∨ IsUpper byte))

def value? (byte : UInt8) : Option UInt8 :=
  if IsDecimal byte then some (byte - 48)
  else if 97 ≤ byte ∧ byte ≤ 102 then some (byte - 87)
  else if IsUpper byte then some (byte - 55)
  else none

def digit (value : UInt8) : UInt8 := if value < 10 then 48 + value else 87 + value

theorem value?_isSome_iff (byte : UInt8) : (value? byte).isSome = true ↔ IsDigit byte := by
  unfold value? IsDigit IsLower
  by_cases decimal : IsDecimal byte <;> by_cases letter : 97 ≤ byte ∧ byte ≤ 102 <;>
    by_cases upper : IsUpper byte <;> simp [decimal, letter, upper]

theorem not_isUpper_of_isLower {byte : UInt8} (lower : IsLower byte) : ¬ IsUpper byte := by
  unfold IsLower IsDecimal at lower
  unfold IsUpper
  simp only [UInt8.le_iff_toNat_le] at lower ⊢
  have nine : (57 : UInt8).toNat = 57 := rfl
  have a : (97 : UInt8).toNat = 97 := rfl
  have A : (65 : UInt8).toNat = 65 := rfl
  have F : (70 : UInt8).toNat = 70 := rfl
  omega

theorem isLower_iff (byte : UInt8) : IsLower byte ↔ IsDigit byte ∧ ¬ IsUpper byte := by
  constructor
  · intro lower
    exact ⟨.inl lower, not_isUpper_of_isLower lower⟩
  · rintro ⟨lower | upper, other⟩
    · exact lower
    · exact absurd upper other

theorem isLower_digit {value : UInt8} (small : value < 16) : IsLower (digit value) := by
  unfold digit IsLower IsDecimal
  split <;> grind

theorem digit_eq_zero_iff {value : UInt8} (small : value < 16) : digit value = 48 ↔ value = 0 := by
  unfold digit
  split <;> grind

end Digits

section Texts

def encodedLen (size : Nat) : Nat := size * 2

def encode : List UInt8 → List UInt8
  | [] => []
  | byte :: rest => digit (byte / 16) :: digit (byte % 16) :: encode rest

inductive DecodeError where
  | invalidByte (byte : UInt8)
  | length
deriving DecidableEq, Repr

/-- A digit that is left over is an error of its own. -/
def decode : List UInt8 → Except DecodeError (List UInt8)
  | [] => .ok []
  | [last] => if (value? last).isSome then .error .length else .error (.invalidByte last)
  | high :: low :: rest =>
      match value? high, value? low with
      | none, _ => .error (.invalidByte high)
      | some _, none => .error (.invalidByte low)
      | some first, some second => (decode rest).map ((first * 16 + second) :: ·)

theorem decode_isOk_iff (text : List UInt8) :
    (decode text).isOk = true ↔ text.length % 2 = 0 ∧ ∀ byte ∈ text, IsDigit byte := by
  fun_induction decode text with
  | case1 => simp [Except.isOk, Except.toBool]
  | case2 last known => simp [Except.isOk, Except.toBool]
  | case3 last unknown => simp [Except.isOk, Except.toBool]
  | case4 high low rest unknown =>
      have bad : ¬ IsDigit high := by simp [← value?_isSome_iff, unknown]
      simp [Except.isOk, Except.toBool, bad]
  | case5 high low rest first unknown known =>
      have bad : ¬ IsDigit low := by simp [← value?_isSome_iff, unknown]
      simp [Except.isOk, Except.toBool, bad]
  | case6 high low rest first second knownToo known ih =>
      have good : IsDigit high := by simp [← value?_isSome_iff, known]
      have goodToo : IsDigit low := by simp [← value?_isSome_iff, knownToo]
      have kept : ((decode rest).map ((first * 16 + second) :: ·)).isOk = (decode rest).isOk := by
        cases decode rest <;> rfl
      have parity : (high :: low :: rest).length % 2 = rest.length % 2 :=
        Nat.add_mod_right rest.length 2
      rw [kept, ih, parity]
      simp [good, goodToo]

theorem length_encode (bytes : List UInt8) : (encode bytes).length = encodedLen bytes.length := by
  induction bytes with
  | nil => rfl
  | cons byte rest ih =>
      simp only [encode, List.length_cons, ih, encodedLen]
      omega

theorem div_lt (byte : UInt8) : byte / 16 < 16 := by
  have bound := byte.toNat_lt
  rw [UInt8.lt_iff_toNat_lt, UInt8.toNat_div]
  exact Nat.div_lt_of_lt_mul bound

theorem mod_lt (byte : UInt8) : byte % 16 < 16 := by
  rw [UInt8.lt_iff_toNat_lt, UInt8.toNat_mod]
  exact Nat.mod_lt _ (by decide)

theorem isLower_encode {bytes : List UInt8} {byte : UInt8} (written : byte ∈ encode bytes) : IsLower byte := by
  induction bytes with
  | nil => cases written
  | cons first rest ih =>
      rcases List.mem_cons.mp written with rfl | written
      · exact isLower_digit (div_lt first)
      · rcases List.mem_cons.mp written with rfl | written
        · exact isLower_digit (mod_lt first)
        · exact ih written

theorem byte_eq_zero_iff (byte : UInt8) : byte / 16 = 0 ∧ byte % 16 = 0 ↔ byte = 0 := by
  have sixteen : (16 : UInt8).toNat = 16 := rfl
  rw [← UInt8.toNat_inj, ← UInt8.toNat_inj, ← UInt8.toNat_inj, UInt8.toNat_div, UInt8.toNat_mod, sixteen,
    UInt8.toNat_zero]
  omega

theorem encode_eq_zeros_iff (bytes : List UInt8) :
    encode bytes = List.replicate (encodedLen bytes.length) 48 ↔ ∀ byte ∈ bytes, byte = 0 := by
  induction bytes with
  | nil => simp [encode, encodedLen]
  | cons byte rest ih =>
      have size : encodedLen (byte :: rest).length = encodedLen rest.length + 2 := by
        simp only [encodedLen, List.length_cons]
        omega
      rw [size, List.replicate_succ, List.replicate_succ, encode, List.cons.injEq, List.cons.injEq, ih,
        digit_eq_zero_iff (div_lt byte), digit_eq_zero_iff (mod_lt byte), ← and_assoc,
        byte_eq_zero_iff, List.forall_mem_cons]

end Texts

end Eamerald.Foundation.Hex
