import Eamerald.Datasync.Sync
import Eamerald.Directory.Simple
import Eamerald.Foundation.Runs

/-! The watermark over any sequence of runs. It is taken from the clock of the edge,
since storing a row replaces its time, and so it stays behind the changes of the hub
only as long as that clock does. -/

set_option autoImplicit false

namespace Eamerald.Datasync

open Foundation Store Directory

/-- An edge with the last stored timestamp and the latest change that some run applied. -/
structure Progress (ω : Type) where
  edge : Edge ω
  stored : Timestamp := .zero
  latest : Timestamp := .zero

section Runs

variable {ω μ φ : Type} [Wire ω μ] (library : Library μ) (filters : FilterLibrary φ)

def Run.applied (run : Run μ) (edge : Edge ω) : List (Applied μ) :=
  let rows := (run.produced filters edge.file).1
  if (subscriberStage library run rows edge.db).1.isOk then
    appliedRows library Bolt.backend rows edge.db
  else []

def largestUpdate (rows : List (Applied μ)) (latest : Timestamp) : Timestamp :=
  rows.foldl (fun latest applied => max latest applied.row.updatedAt) latest

def Progress.latestAfter (progress : Progress ω) (run : Run μ) : Timestamp :=
  largestUpdate (run.applied library filters progress.edge) progress.latest

def Progress.advance (progress : Progress ω) (run : Run μ) : Progress ω :=
  let ended := syncDirectory library filters run progress.edge
  { edge := ended.2
    stored := if ended.1.isOk then (getWatermark ended.2.file).timestamp else progress.stored
    latest := progress.latestAfter library filters run }

def syncs : Machine (Progress ω) (Run μ) := ⟨fun progress run => some (progress.advance library filters run)⟩

/-- A successful run stores a timestamp that is not below the one stored last, and not
beyond the changes that were applied. -/
def StaysBehind (progress : Progress ω) (run : Run μ) : Prop :=
  (syncDirectory library filters run progress.edge).1.isOk →
    progress.stored ≤ (progress.advance library filters run).stored ∧
      (progress.advance library filters run).stored ≤ (progress.advance library filters run).latest

/-- The clock of the edge is not ahead of the applied changes, and not behind a lost watermark. -/
def ClocksAgree (progress : Progress ω) (run : Run μ) : Prop :=
  (syncDirectory library filters run progress.edge).1.isOk →
    largestClock (run.applied library filters progress.edge) .zero ≤
        progress.latestAfter library filters run ∧
      (progress.edge.file = none →
        progress.stored ≤ largestClock (run.applied library filters progress.edge) .zero)

instance (progress : Progress ω) (run : Run μ) :
    Decidable (StaysBehind library filters progress run) :=
  inferInstanceAs (Decidable (_ → _ ∧ _))

/-- What holds between the runs as long as the watermark stays behind. -/
structure Progress.Consistent (progress : Progress ω) : Prop where
  file : ∀ watermark, progress.edge.file = some watermark → watermark.timestamp = progress.stored
  behind : progress.stored ≤ progress.latest

variable {library filters} {progress : Progress ω} {run : Run μ}

theorem le_largestClock (rows : List (Applied μ)) (ts : Timestamp) : ts ≤ largestClock rows ts := by
  induction rows generalizing ts with
  | nil => exact le_rfl
  | cons applied rest ih =>
      have first : ts ≤ maxTS ts applied.now := by
        rw [maxTS_eq_max]
        exact le_max_left ts applied.now
      exact first.trans (ih _)

theorem le_largestUpdate (rows : List (Applied μ)) (latest : Timestamp) :
    latest ≤ largestUpdate rows latest := by
  induction rows generalizing latest with
  | nil => exact le_rfl
  | cons applied rest ih => exact le_trans (le_max_left _ _) (ih _)

theorem exists_ok_of_isOk {α : Type} {outcome : Except Err α} (succeeded : outcome.isOk) :
    ∃ value, outcome = .ok value := by
  cases outcome with
  | error error => cases succeeded
  | ok value => exact ⟨value, rfl⟩

theorem stored_advance (succeeded : (syncDirectory library filters run progress.edge).1.isOk) :
    ∃ watermark, (progress.advance library filters run).edge.file = some watermark ∧
      watermark.timestamp = (progress.advance library filters run).stored ∧
      (progress.advance library filters run).stored = max (getWatermark progress.edge.file).timestamp
          (largestClock (run.applied library filters progress.edge) .zero) := by
  obtain ⟨_, answered⟩ := exists_ok_of_isOk succeeded
  obtain ⟨ts, stored, subscribed, _, _, written⟩ := syncDirectory_ok (Prod.ext answered rfl)
  obtain ⟨watermark, found, timestamp⟩ := setWatermark_ok written
  have rows : run.applied library filters progress.edge =
      appliedRows library Bolt.backend (run.produced filters progress.edge.file).1 progress.edge.db := by
    simp only [Run.applied, subscribed]
    rfl
  rw [(subscriberStage_ok subscribed).1, ← rows] at timestamp
  have same : (progress.advance library filters run).stored = watermark.timestamp := by
    simp only [Progress.advance, if_pos succeeded, found]
    rfl
  exact ⟨watermark, found, same.symm, same.trans timestamp⟩

theorem Progress.Consistent.timestamp (consistent : progress.Consistent) :
    max (getWatermark progress.edge.file).timestamp
        (largestClock (run.applied library filters progress.edge) .zero) = if progress.edge.file = none then
        largestClock (run.applied library filters progress.edge) .zero
      else max progress.stored (largestClock (run.applied library filters progress.edge) .zero) := by
  cases found : progress.edge.file with
  | none => simpa [getWatermark] using le_largestClock _ _
  | some watermark => simp [getWatermark, consistent.file watermark found]

theorem staysBehind_iff (consistent : progress.Consistent) :
    StaysBehind library filters progress run ↔ ClocksAgree library filters progress run := by
  refine imp_congr_right fun succeeded => ?_
  have reached : progress.stored ≤ progress.latestAfter library filters run :=
    consistent.behind.trans (le_largestUpdate _ _)
  have latest : (progress.advance library filters run).latest =
      progress.latestAfter library filters run := rfl
  obtain ⟨_, _, _, stored⟩ := stored_advance succeeded
  rw [latest, stored, consistent.timestamp]
  by_cases lost : progress.edge.file = none
  · simp [lost, and_comm]
  · simp [lost, reached]

theorem Progress.Consistent.advance (consistent : progress.Consistent)
    (behind : StaysBehind library filters progress run) :
    (progress.advance library filters run).Consistent := by
  cases succeeded : (syncDirectory library filters run progress.edge).1.isOk with
  | true =>
      obtain ⟨watermark, found, timestamp, _⟩ := stored_advance succeeded
      refine ⟨?_, (behind succeeded).2⟩
      intro other otherFound
      cases found.symm.trans otherFound
      exact timestamp
  | false =>
      have kept : (progress.advance library filters run).stored = progress.stored := by
        simp [Progress.advance, succeeded]
      refine ⟨?_, ?_⟩
      · intro watermark found
        rw [kept]
        cases ended : syncDirectory library filters run progress.edge with
        | mk outcome after =>
            cases outcome with
            | ok _ =>
                rw [ended] at succeeded
                cases succeeded
            | error error =>
                have file : after.file = some watermark := by
                  simpa [Progress.advance, ended] using found
                rcases file_of_syncDirectory_error ended with same | lost
                · exact consistent.file watermark (same ▸ file)
                · cases lost.symm.trans file
      · rw [kept]
        exact consistent.behind.trans (le_largestUpdate _ _)

/-- Over any sequence of runs of a new edge the watermark stays behind the changes that
were applied exactly when the clock of the edge does. -/
theorem watermark_stays_behind_iff (library : Library μ) (filters : FilterLibrary φ)
    (db : Bolt.BoltDB ω) (runs : List (Run μ)) :
    (syncs library filters).Respects (StaysBehind library filters) { edge := { db } } runs ↔
      (syncs library filters).Respects (ClocksAgree library filters) { edge := { db } } runs := by
  refine Machine.respects_iff Progress.Consistent
    (fun _ _ consistent => staysBehind_iff consistent) ?_ ⟨?_, le_rfl⟩
  · intro progress run next consistent behind stepped
    cases stepped
    exact consistent.advance behind
  · intro watermark found
    cases found

end Runs

section Ahead

def aheadOfHub : Run Simple.Model where
  mode := .full
  hub _ := { messages := [.row
    { model := Simple.viewersModel, now := ⟨100, 0⟩
      row := .object (some { type := "doc".toList, id := "a".toList, updatedAt := some ⟨10, 0⟩ }) }] }
  diffModel := Simple.viewersModel

/-- A change of the hub between the seconds 10 and 100 is older than the watermark. -/
theorem watermark_runs_ahead :
    ¬ (syncs Simple.library .exact).Respects (StaysBehind Simple.library .exact)
      { edge := { db := (Bolt.emptyDB : Bolt.BoltDB (Blob Simple.Model)) } } [aheadOfHub] := by
  decide +kernel

end Ahead

end Eamerald.Datasync
