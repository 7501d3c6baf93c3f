import Eamerald.Bolt.Database

/-! The watermark file that a synchronisation leaves behind: up to which time the
edge has the changes of its hub, and how many rows it has. The size of the filter of
the next run is taken from the count. -/

set_option autoImplicit false

namespace Eamerald

def Timestamp.zero : Timestamp := ⟨0, 0⟩

end Eamerald

namespace Eamerald.Datasync

structure Watermark where
  timestamp : Timestamp := .zero
  totalCount : UInt64 := 0
  objectCount : UInt64 := 0
  relationCount : UInt64 := 0
deriving DecidableEq

/-- The number of entries that the filter is made for: twice the rows of the last run,
rounded up, and never below the default. -/
def Watermark.getFilterSize (watermark : Watermark) : UInt64 :=
  let initFilterSize : UInt64 := 100000
  let growthFactor : UInt64 := 2
  let rounding : UInt64 := 1000
  if watermark.totalCount = 0 then initFilterSize
  else
    let growthSize := watermark.totalCount * growthFactor
    if growthSize < initFilterSize then initFilterSize
    else growthSize + (rounding - growthSize % rounding)

def maxTS (lhs rhs : Timestamp) : Timestamp :=
  if rhs.seconds < lhs.seconds then lhs
  else if lhs.seconds = rhs.seconds ∧ rhs.nanos < lhs.nanos then lhs
  else rhs

/-- The content of the file; one that is missing or does not decode counts as a new one. -/
abbrev WatermarkFile := Option Watermark

def getWatermark (file : WatermarkFile) : Watermark := file.getD {}

/-- How writing the file goes: it may not be created, or be left without content. -/
inductive FileWrite where
  | written
  | notCreated (error : Err)
  | cut (error : Err)

def keyN {ω : Type} (path : Bolt.Path) (db : Bolt.BoltDB ω) : Nat :=
  ((db.bucket path).map fun bucket => bucket.size).getD 0

def setWatermark {ω : Type} (write : FileWrite) (ts : Timestamp) (db : Bolt.BoltDB ω)
    (file : WatermarkFile) : Except Err Unit × WatermarkFile :=
  let newTS := maxTS (getWatermark file).timestamp ts
  let objectCount := UInt64.ofNat (keyN .objects db)
  let relationCount := UInt64.ofNat (keyN .relationsObj db)
  match write with
  | .notCreated error => (.error error, file)
  | .cut error => (.error error, none)
  | .written => (.ok (), some
      { timestamp := newTS, totalCount := objectCount + relationCount, objectCount, relationCount })

section Order

/-- Timestamps in the order that `maxTS` compares them in. -/
instance : LinearOrder Timestamp :=
  LinearOrder.lift' (fun timestamp : Timestamp => toLex (timestamp.seconds, timestamp.nanos))
    fun left right same => by
      obtain ⟨seconds, nanos⟩ := Prod.mk.inj (toLex.injective same)
      cases left
      cases right
      cases seconds
      cases nanos
      rfl

theorem timestamp_le_iff {left right : Timestamp} : left ≤ right ↔ left.seconds < right.seconds ∨
      left.seconds = right.seconds ∧ left.nanos ≤ right.nanos :=
  Prod.Lex.toLex_le_toLex

theorem maxTS_eq_max (lhs rhs : Timestamp) : maxTS lhs rhs = max lhs rhs := by
  unfold maxTS
  split
  · rename_i later
    exact (max_eq_left (timestamp_le_iff.mpr (.inl later))).symm
  · rename_i notLater
    split
    · rename_i later
      exact (max_eq_left (timestamp_le_iff.mpr (.inr ⟨later.1.symm, later.2.le⟩))).symm
    · rename_i neither
      refine (max_eq_right (timestamp_le_iff.mpr ?_)).symm
      rcases (not_lt.mp notLater).lt_or_eq with earlier | same
      · exact .inl earlier
      · exact .inr ⟨same, not_lt.mp fun later => neither ⟨same, later⟩⟩

end Order

end Eamerald.Datasync
