import Eamerald.Api.Messages
import Eamerald.Foundation.Hex

/-! The trace context of a request. A header is any sequence of bytes; what is read from it goes into
the decision log as it stands. -/

set_option autoImplicit false

namespace Eamerald.Header

open Foundation

section Model

def ascii (text : String) : Bytes := text.toList.map fun char => UInt8.ofNat char.toNat

def dash : UInt8 := 45
def zero : UInt8 := 48

structure TraceContext where
  traceID : Bytes
  spanID : Bytes
  parentSpanID : Bytes
deriving DecidableEq, Repr

def traceIDBytes : Nat := 16
def spanIDBytes : Nat := 8
def traceFlagsBytes : Nat := 1

/-- The trace and the parent of a traceparent of version 00, if it is taken for one. -/
def parseTraceParent (v : Bytes) : Option (Bytes × Bytes) :=
  match v.splitOn dash with
  | [version, traceID, parentID, flags] =>
      if version ≠ ascii "00" ∨ traceID.length ≠ Hex.encodedLen traceIDBytes ∨
          parentID.length ≠ Hex.encodedLen spanIDBytes ∨
          flags.length ≠ Hex.encodedLen traceFlagsBytes then none
      else if ∃ part ∈ [traceID, parentID, flags], (Hex.decode part).isOk = false then none
      else if traceID = List.replicate (Hex.encodedLen traceIDBytes) zero ∨
          parentID = List.replicate (Hex.encodedLen spanIDBytes) zero then none
      else some (traceID, parentID)
  | _ => none

/-- Metadata by lower-case keys. -/
abbrev Metadata := Std.ExtTreeMap GoString (List Bytes)

def headerTraceParent : GoString := "traceparent".toList

structure Random where
  trace : Bytes
  span : Bytes
  traceSize : trace.length = traceIDBytes
  spanSize : span.length = spanIDBytes

def incomingTraceParent (incoming : Option Metadata) : Option (Bytes × Bytes) := do
  let md ← incoming
  let v ← (md[headerTraceParent]?.getD []).head?
  parseTraceParent v

def extractTraceContext (incoming : Option Metadata) (random : Random) : TraceContext :=
  let (traceID, parentSpanID) := (incomingTraceParent incoming).getD ([], [])
  { traceID := if traceID = [] then Hex.encode random.trace else traceID
    spanID := Hex.encode random.span
    parentSpanID }

end Model

section Grammar

/-- An identifier of this many digits of a kind, not all of them zero. -/
structure Identifier (digit : UInt8 → Prop) (size : Nat) (text : Bytes) : Prop where
  length : text.length = size
  digits : ∀ byte ∈ text, digit byte
  nonzero : text ≠ List.replicate size zero

/-- A traceparent of version 00 with digits of a kind. Those of the W3C are of lower case. -/
structure TraceParent (digit : UInt8 → Prop) (v traceID parentID : Bytes) : Prop where
  trace : Identifier digit 32 traceID
  parent : Identifier digit 16 parentID
  spelled : ∃ flags, flags.length = 2 ∧ (∀ byte ∈ flags, digit byte) ∧
    v = ascii "00-" ++ traceID ++ ascii "-" ++ parentID ++ ascii "-" ++ flags

theorem Identifier.ne_nil {digit : UInt8 → Prop} {size : Nat} {text : Bytes}
    (identifier : Identifier digit size text) : text ≠ [] := by
  rintro rfl
  have length := identifier.length
  have nonzero := identifier.nonzero
  cases length
  exact nonzero rfl

theorem identifier_lower_iff {size : Nat} {text : Bytes} (either : Identifier Hex.IsDigit size text) :
    Identifier Hex.IsLower size text ↔ ∀ byte ∈ text, ¬ Hex.IsUpper byte := by
  constructor
  · intro lower byte member
    exact ((Hex.isLower_iff byte).mp (lower.digits byte member)).2
  · intro noUpper
    refine ⟨either.length, fun byte member => ?_, either.nonzero⟩
    exact (Hex.isLower_iff byte).mpr ⟨either.digits byte member, noUpper byte member⟩

theorem dash_not_digit : ¬ Hex.IsDigit dash := by decide

theorem spelled_eq_intercalate (traceID parentID flags : Bytes) :
    ascii "00-" ++ traceID ++ ascii "-" ++ parentID ++ ascii "-" ++ flags =
      [dash].intercalate [ascii "00", traceID, parentID, flags] := by
  simp [ascii, dash, List.intercalate]

end Grammar

section Parser

variable {v traceID parentID flags : Bytes}

/-- The parts of an accepted value have the lengths of their fields, so that only their digits are
left to be checked. -/
theorem decodes_iff {part : Bytes} (size : Nat) (length : part.length = Hex.encodedLen size) :
    (Hex.decode part).isOk = false ↔ ¬ ∀ byte ∈ part, Hex.IsDigit byte := by
  have even : part.length % 2 = 0 := by
    rw [length]
    exact Nat.mul_mod_left size 2
  rw [← Bool.not_eq_true, Hex.decode_isOk_iff]
  simp [even]

theorem parseTraceParent_of_split (split : v.splitOn dash = [ascii "00", traceID, parentID, flags])
    (trace : Identifier Hex.IsDigit 32 traceID) (parent : Identifier Hex.IsDigit 16 parentID)
    (size : flags.length = 2) (digits : ∀ byte ∈ flags, Hex.IsDigit byte) :
    parseTraceParent v = some (traceID, parentID) := by
  have lengths : ¬ (ascii "00" ≠ ascii "00" ∨ traceID.length ≠ Hex.encodedLen traceIDBytes ∨
      parentID.length ≠ Hex.encodedLen spanIDBytes ∨
      flags.length ≠ Hex.encodedLen traceFlagsBytes) := by
    simp [trace.length, parent.length, size, Hex.encodedLen, traceIDBytes, spanIDBytes, traceFlagsBytes]
  have decoded : ¬ ∃ part ∈ [traceID, parentID, flags], (Hex.decode part).isOk = false := by
    rintro ⟨part, listed, failed⟩
    rcases List.mem_cons.mp listed with rfl | listed
    · exact (decodes_iff traceIDBytes trace.length).mp failed trace.digits
    · rcases List.mem_pair.mp listed with rfl | rfl
      · exact (decodes_iff spanIDBytes parent.length).mp failed parent.digits
      · exact (decodes_iff traceFlagsBytes size).mp failed digits
  have nonzero : ¬ (traceID = List.replicate (Hex.encodedLen traceIDBytes) zero ∨
      parentID = List.replicate (Hex.encodedLen spanIDBytes) zero) :=
    not_or.mpr ⟨trace.nonzero, parent.nonzero⟩
  simp only [parseTraceParent, split, if_neg lengths, if_neg decoded, if_neg nonzero]

theorem split_of_parseTraceParent (accepted : parseTraceParent v = some (traceID, parentID)) :
    ∃ flags, v.splitOn dash = [ascii "00", traceID, parentID, flags] ∧
      Identifier Hex.IsDigit 32 traceID ∧ Identifier Hex.IsDigit 16 parentID ∧
      flags.length = 2 ∧ ∀ byte ∈ flags, Hex.IsDigit byte := by
  unfold parseTraceParent at accepted
  split at accepted
  case h_2 => cases accepted
  case h_1 version trace parent flags split =>
    by_cases lengths : version ≠ ascii "00" ∨ trace.length ≠ Hex.encodedLen traceIDBytes ∨
        parent.length ≠ Hex.encodedLen spanIDBytes ∨ flags.length ≠ Hex.encodedLen traceFlagsBytes
    · rw [if_pos lengths] at accepted
      cases accepted
    rw [if_neg lengths] at accepted
    simp only [not_or, ne_eq, not_not] at lengths
    obtain ⟨rfl, traceSize, parentSize, flagsSize⟩ := lengths
    by_cases failed : ∃ part ∈ [trace, parent, flags], (Hex.decode part).isOk = false
    · rw [if_pos failed] at accepted
      cases accepted
    rw [if_neg failed] at accepted
    by_cases zeros : trace = List.replicate (Hex.encodedLen traceIDBytes) zero ∨
        parent = List.replicate (Hex.encodedLen spanIDBytes) zero
    · rw [if_pos zeros] at accepted
      cases accepted
    rw [if_neg zeros] at accepted
    cases accepted
    obtain ⟨traceNonzero, parentNonzero⟩ := not_or.mp zeros
    have digits {part : Bytes} {size : Nat} (length : part.length = Hex.encodedLen size)
        (listed : part ∈ [traceID, parentID, flags]) : ∀ byte ∈ part, Hex.IsDigit byte := by
      by_contra bad
      exact failed ⟨part, listed, (decodes_iff size length).mpr bad⟩
    exact ⟨flags, split, ⟨traceSize, digits traceSize (by simp), traceNonzero⟩,
      ⟨parentSize, digits parentSize (by simp), parentNonzero⟩, flagsSize,
      digits flagsSize (by simp)⟩

theorem parseTraceParent_eq_some_iff :
    parseTraceParent v = some (traceID, parentID) ↔ TraceParent Hex.IsDigit v traceID parentID := by
  constructor
  · intro accepted
    obtain ⟨flags, split, trace, parent, size, digits⟩ := split_of_parseTraceParent accepted
    refine ⟨trace, parent, flags, size, digits, ?_⟩
    rw [spelled_eq_intercalate, ← split]
    exact (List.intercalate_splitOn dash).symm
  · rintro ⟨trace, parent, flags, size, digits, rfl⟩
    refine parseTraceParent_of_split ?_ trace parent size digits
    have free : ∀ part ∈ [ascii "00", traceID, parentID, flags], dash ∉ part := by
      intro part listed inside
      refine dash_not_digit ?_
      simp only [List.mem_cons, List.not_mem_nil, or_false] at listed
      rcases listed with rfl | rfl | rfl | rfl
      · exact absurd inside (by decide)
      · exact trace.digits dash inside
      · exact parent.digits dash inside
      · exact digits dash inside
    rw [spelled_eq_intercalate]
    exact List.splitOn_intercalate dash free (List.cons_ne_nil _ _)

theorem traceParent_lower_iff : TraceParent Hex.IsLower v traceID parentID ↔
      TraceParent Hex.IsDigit v traceID parentID ∧ ∀ byte ∈ v, ¬ Hex.IsUpper byte := by
  have fixed : ∀ byte ∈ ascii "00-" ++ ascii "-", ¬ Hex.IsUpper byte := by
    simp [ascii, Hex.IsUpper]
  constructor
  · rintro ⟨trace, parent, flags, size, digits, rfl⟩
    have either {part : Bytes} (lower : ∀ byte ∈ part, Hex.IsLower byte) :
        ∀ byte ∈ part, Hex.IsDigit byte := fun byte member => .inl (lower byte member)
    have low {part : Bytes} (lower : ∀ byte ∈ part, Hex.IsLower byte) :
        ∀ byte ∈ part, ¬ Hex.IsUpper byte :=
      fun byte member => Hex.not_isUpper_of_isLower (lower byte member)
    refine ⟨⟨⟨trace.length, either trace.digits, trace.nonzero⟩,
      ⟨parent.length, either parent.digits, parent.nonzero⟩, flags, size, either digits, rfl⟩, ?_⟩
    intro byte member
    simp only [List.mem_append] at member fixed
    rcases member with ((((member | member) | member) | member) | member) | member
    · exact fixed byte (.inl member)
    · exact low trace.digits byte member
    · exact fixed byte (.inr member)
    · exact low parent.digits byte member
    · exact fixed byte (.inr member)
    · exact low digits byte member
  · rintro ⟨⟨trace, parent, flags, size, digits, rfl⟩, noUpper⟩
    simp only [List.mem_append] at noUpper
    refine ⟨(identifier_lower_iff trace).mpr fun byte member => noUpper byte ?_,
      (identifier_lower_iff parent).mpr fun byte member => noUpper byte ?_, flags, size,
      fun byte member => (Hex.isLower_iff byte).mpr ⟨digits byte member, noUpper byte ?_⟩, rfl⟩
    all_goals simp [member]

end Parser

section Contexts

variable {incoming : Option Metadata} {random : Random} {traceID parentID : Bytes}

theorem identifiers_of_incoming (adopted : incomingTraceParent incoming = some (traceID, parentID)) :
    Identifier Hex.IsDigit 32 traceID ∧ Identifier Hex.IsDigit 16 parentID := by
  simp only [incomingTraceParent, Option.bind_eq_bind, Option.bind_eq_some_iff] at adopted
  obtain ⟨md, _, v, _, accepted⟩ := adopted
  obtain ⟨trace, parent, _⟩ := parseTraceParent_eq_some_iff.mp accepted
  exact ⟨trace, parent⟩

theorem identifier_encode_iff (bytes : Bytes) :
    Identifier Hex.IsLower (Hex.encodedLen bytes.length) (Hex.encode bytes) ↔ ¬ ∀ byte ∈ bytes, byte = 0 := by
  rw [← Hex.encode_eq_zeros_iff]
  constructor
  · exact Identifier.nonzero
  · intro nonzero
    exact ⟨Hex.length_encode bytes, fun _ => Hex.isLower_encode, nonzero⟩

/-- The identifiers that are logged are those of the W3C. A root has no parent. -/
def TraceContext.Valid (context : TraceContext) : Prop :=
  Identifier Hex.IsLower 32 context.traceID ∧
    (context.parentSpanID = [] ∨ Identifier Hex.IsLower 16 context.parentSpanID)

theorem extractTraceContext_adopted (adopted : incomingTraceParent incoming = some (traceID, parentID)) :
    extractTraceContext incoming random = ⟨traceID, Hex.encode random.span, parentID⟩ := by
  have present := (identifiers_of_incoming adopted).1.ne_nil
  simp [extractTraceContext, adopted, present]

theorem extractTraceContext_root (root : incomingTraceParent incoming = none) :
    extractTraceContext incoming random = ⟨Hex.encode random.trace, Hex.encode random.span, []⟩ := by
  simp [extractTraceContext, root]

theorem valid_adopted_iff (adopted : incomingTraceParent incoming = some (traceID, parentID)) :
    (extractTraceContext incoming random).Valid ↔ ∀ byte ∈ traceID ++ parentID, ¬ Hex.IsUpper byte := by
  obtain ⟨trace, parent⟩ := identifiers_of_incoming adopted
  rw [extractTraceContext_adopted adopted, TraceContext.Valid, identifier_lower_iff trace,
    identifier_lower_iff parent, List.forall_mem_append]
  simp [parent.ne_nil]

theorem valid_root_iff (root : incomingTraceParent incoming = none) :
    (extractTraceContext incoming random).Valid ↔ ¬ ∀ byte ∈ random.trace, byte = 0 := by
  have fresh := identifier_encode_iff random.trace
  rw [random.traceSize] at fresh
  rw [extractTraceContext_root root, ← fresh]
  simp only [TraceContext.Valid, true_or, and_true]
  rfl

/-- A header is taken exactly if it is a traceparent of the W3C, with its identifiers, unless it is
taken although it has a digit of upper case. The identifiers that are logged are those of the W3C
unless they were taken with such a digit, or a fresh one is zero. -/
theorem traceparent_w3c_iff (v : Bytes) (incoming : Option Metadata) (random : Random) :
    ((∀ traceID parentID, parseTraceParent v = some (traceID, parentID) ↔
        TraceParent Hex.IsLower v traceID parentID) ↔
      parseTraceParent v = none ∨ ∀ byte ∈ v, ¬ Hex.IsUpper byte) ∧
    ((extractTraceContext incoming random).Valid ↔
      (∀ traceID parentID, incomingTraceParent incoming = some (traceID, parentID) →
        ∀ byte ∈ traceID ++ parentID, ¬ Hex.IsUpper byte) ∧
      (incomingTraceParent incoming = none → ¬ ∀ byte ∈ random.trace, byte = 0)) := by
  constructor
  · simp only [traceParent_lower_iff, ← parseTraceParent_eq_some_iff, iff_self_and]
    cases accepted : parseTraceParent v with
    | none => simp
    | some fields => simp [Prod.ext_iff]
  · cases adopted : incomingTraceParent incoming with
    | none => simp [valid_root_iff adopted]
    | some fields =>
        obtain ⟨traceID, parentID⟩ := fields
        simp [valid_adopted_iff adopted, Prod.ext_iff]

def shouted : Bytes := ascii "00-4Bf92f3577b34da6a3ce929d0e0e4736-00f067aa0ba902b7-01"

theorem shouted_adopted :
    parseTraceParent shouted =
        some (ascii "4Bf92f3577b34da6a3ce929d0e0e4736", ascii "00f067aa0ba902b7") ∧
      (∀ traceID parentID, ¬ TraceParent Hex.IsLower shouted traceID parentID) ∧
      ∀ random, ¬ (extractTraceContext (some (.ofList [(headerTraceParent, [shouted])])) random).Valid := by
  have accepted : parseTraceParent shouted =
      some (ascii "4Bf92f3577b34da6a3ce929d0e0e4736", ascii "00f067aa0ba902b7") := by decide
  have adopted : incomingTraceParent (some (.ofList [(headerTraceParent, [shouted])])) =
      some (ascii "4Bf92f3577b34da6a3ce929d0e0e4736", ascii "00f067aa0ba902b7") := by
    simpa [incomingTraceParent] using accepted
  refine ⟨accepted, fun traceID parentID spelled => ?_, fun random valid => ?_⟩
  · exact (traceParent_lower_iff.mp spelled).2 66 (by decide) (by decide)
  · exact (valid_adopted_iff adopted).mp valid 66 (by decide) (by decide)

end Contexts

end Eamerald.Header
