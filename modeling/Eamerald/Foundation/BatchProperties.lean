import Eamerald.Foundation.Batch

/-! What batching keeps. As long as no transaction is rolled back in which a function
counted something, all that a returned call counted is in the committed history,
and the store is what that history makes of the initial one. -/

set_option autoImplicit false

namespace Eamerald.Foundation

variable {Op : Type → Type} {ε σ ι : Type} {handler : Handler Op ε σ}
  {handle : ι → Program Op ε PUnit}

section Consume

theorem consume_append (first rest : List ι) (state : σ) : consume handler handle (first ++ rest) state =
      ((consume handler handle first state).1 ++
          (consume handler handle rest (consume handler handle first state).2).1,
        (consume handler handle rest (consume handler handle first state).2).2) := by
  induction first generalizing state with
  | nil => rfl
  | cons item first ih => simp [consume, ih]

theorem consume_items (items : List ι) (state : σ) :
    (consume handler handle items state).1.map Prod.fst = items := by
  induction items generalizing state with
  | nil => rfl
  | cons item items ih => simp [consume, ih]

theorem consume_map {κ : Type} (handle : ι → Program Op ε PUnit) (wrap : κ → ι) (items : List κ) (state : σ) :
    consume handler handle (items.map wrap) state =
      ((consume handler (fun item => handle (wrap item)) items state).1.map (Prod.map wrap id),
        (consume handler (fun item => handle (wrap item)) items state).2) := by
  induction items generalizing state with
  | nil => rfl
  | cons item items ih => simp [consume, ih]

theorem entry_of_consume {items : List ι} {state final : σ}
    {earlier later : List (ι × Except ε PUnit)} {item : ι} {outcome : Except ε PUnit}
    (replays : consume handler handle items state = (earlier ++ (item, outcome) :: later, final)) :
    ∃ before after, (handle item).run handler before = (outcome, after) ∧
      consume handler handle (earlier.map Prod.fst) state = (earlier, before) ∧
      consume handler handle (later.map Prod.fst) after = (later, final) := by
  induction earlier generalizing items state with
  | nil =>
      cases items with
      | nil => cases replays
      | cons first rest =>
          obtain ⟨entries, rfl⟩ := Prod.mk.inj replays
          obtain ⟨head, rfl⟩ := List.cons.inj entries
          obtain ⟨rfl, ran⟩ := Prod.mk.inj head
          refine ⟨state, ((handle first).run handler state).2, ?_, rfl, ?_⟩
          · rw [← ran]
          · rw [consume_items]
  | cons entry earlier ih =>
      cases items with
      | nil => cases replays
      | cons first rest =>
          obtain ⟨entries, rfl⟩ := Prod.mk.inj replays
          obtain ⟨rfl, remaining⟩ := List.cons.inj entries
          obtain ⟨before, after, ran, replayed, continued⟩ := ih (Prod.ext remaining rfl)
          refine ⟨before, after, ran, ?_, continued⟩
          simp only [List.map_cons, consume, replayed]

theorem holds_or_ended (property : σ → Prop) (ends : ι → Prop)
    (keeps : ∀ item state, ¬ ends item → property state → property ((handle item).run handler state).2)
    (items : List ι) {state : σ} (holds : property state) : property (consume handler handle items state).2 ∨
      ∃ before item after, items = before ++ item :: after ∧ ends item ∧
        property (consume handler handle before state).2 ∧
        ¬ property ((handle item).run handler (consume handler handle before state).2).2 := by
  induction items generalizing state with
  | nil => exact .inl holds
  | cons item items ih =>
      by_cases kept : property ((handle item).run handler state).2
      · rcases ih kept with held | ⟨before, removal, after, rfl, ended, held, lost⟩
        · exact .inl held
        · exact .inr ⟨item :: before, removal, after, rfl, ended, held, lost⟩
      · refine .inr ⟨[], item, items, rfl, ?_, holds, kept⟩
        by_contra other
        exact kept (keeps item state other holds)

end Consume

namespace Batch

variable {members : List Nat} {call : Nat}

section Members

theorem consumers_runMembers (outside : call ∉ members) (shared : Shared ε ι σ) :
    (runMembers handler handle members shared).consumers call = shared.consumers call := by
  induction members generalizing shared with
  | nil => rfl
  | cons member members ih =>
      have different : call ≠ member := List.ne_of_not_mem_cons outside
      simp only [runMembers]
      split
      · rw [ih (List.not_mem_of_not_mem_cons outside)]
        exact Function.update_of_ne different _ _
      · exact Function.update_of_ne different _ _

theorem mem_of_failed {shared : Shared ε ι σ} (fresh : shared.failed = none)
    (failed : (runMembers handler handle members shared).failed = some call) : call ∈ members := by
  induction members generalizing shared with
  | nil => cases fresh.symm.trans failed
  | cons member members ih =>
      simp only [runMembers] at failed
      split at failed
      · refine List.mem_cons_of_mem member (ih ?_ failed)
        exact fresh
      · cases failed
        exact List.mem_cons_self

theorem entries_runMembers {shared : Shared ε ι σ} (distinct : members.Nodup)
    (succeeded : (runMembers handler handle members shared).failed = none) :
    ∃ entries, (runMembers handler handle members shared).entries = shared.entries ++ entries ∧
      consume handler handle (entries.map Prod.fst) shared.state =
        (entries, (runMembers handler handle members shared).state) ∧
      ∀ call ∈ members, (shared.consumers call).counted = [] →
        ((runMembers handler handle members shared).consumers call).counted <:+: entries := by
  induction members generalizing shared with
  | nil => exact ⟨[], (List.append_nil _).symm, rfl, by simp⟩
  | cons member members ih =>
      obtain ⟨outside, distinctRest⟩ := List.nodup_cons.mp distinct
      simp only [runMembers] at succeeded ⊢
      split at succeeded
      · obtain ⟨later, appended, replayed, counted⟩ := ih distinctRest succeeded
        refine ⟨(consume handler handle (shared.consumers member).unread shared.state).1 ++ later,
          ?_, ?_, ?_⟩
        · rw [appended, List.append_assoc]
        · rw [List.map_append, consume_append, consume_items]
          exact congrArg (fun result => (_ ++ result.1, result.2)) replayed
        · intro call within uncounted
          by_cases same : call = member
          · subst same
            rw [consumers_runMembers outside]
            simp only [Function.update_self, Consumer.drained, uncounted, List.nil_append]
            exact (List.prefix_append _ later).isInfix
          · have kept := counted call (List.mem_of_ne_of_mem same within)
              (by simpa only [Function.update_of_ne same] using uncounted)
            exact kept.trans (List.suffix_append _ later).isInfix
      · cases succeeded

end Members

section Durability

variable {consumers : Nat → Consumer ε ι}

variable (handler handle) in
def Harmless (batch : Batch ε ι σ) : BatchEvent ε → Prop
  | .shared members _ =>
      let shared := runMembers handler handle members batch.begin
      shared.failed = none ∨
        ∀ call ∈ members, (shared.consumers call).counted = (batch.consumers call).counted
  | .retried members => ∀ call ∈ members,
      ((runMembers handler handle members batch.begin).consumers call).counted =
        (batch.consumers call).counted
  | .solo _ _ => True

variable (handler handle) in
/-- The store is the outcome of the history, which has all that returned calls counted. -/
structure Durable (start : σ) (batch : Batch ε ι σ) : Prop where
  replays : consume handler handle (batch.log.map Prod.fst) start = (batch.log, batch.store)
  uncounted : ∀ call, (∀ outcome, batch.calls call ≠ .returned outcome) →
    (batch.consumers call).counted = []
  counted : ∀ call, batch.calls call = .returned (.ok ⟨⟩) →
    (batch.consumers call).counted <:+: batch.log

theorem durable_start (fresh : ∀ call, (consumers call).counted = [])
    (start : σ) : Durable handler handle start { store := start, consumers } where
  replays := rfl
  uncounted call _ := fresh call
  counted call returned := by cases returned

variable {start : σ} {batch next : Batch ε ι σ}

theorem Durable.committed (durable : Durable handler handle start batch)
    {entries : List (ι × Except ε PUnit)} {store : σ} {calls : Nat → Call ε}
    (replayed : consume handler handle (entries.map Prod.fst) batch.store = (entries, store))
    (changed : ∀ call, calls call = batch.calls call ∧ consumers call = batch.consumers call ∨
      calls call = .returned (.ok ⟨⟩) ∧ (consumers call).counted <:+: entries) :
    Durable handler handle start { store, consumers, calls, log := batch.log ++ entries } where
  replays := by rw [List.map_append, consume_append, durable.replays, replayed]
  uncounted call waiting := by
    dsimp only at waiting ⊢
    rcases changed call with ⟨sameCall, sameConsumer⟩ | ⟨returned, _⟩
    · rw [sameConsumer]
      exact durable.uncounted call fun outcome => sameCall ▸ waiting outcome
    · exact absurd returned (waiting _)
  counted call returned := by
    dsimp only at returned ⊢
    rcases changed call with ⟨sameCall, sameConsumer⟩ | ⟨_, counted⟩
    · rw [sameConsumer]
      exact (durable.counted call (sameCall ▸ returned)).trans
        (List.prefix_append _ entries).isInfix
    · exact counted.trans (List.suffix_append _ entries).isInfix

theorem Durable.rolledBack (durable : Durable handler handle start batch) {calls : Nat → Call ε}
    (changed : ∀ call, (consumers call).counted = (batch.consumers call).counted ∧
        (∀ outcome, calls call = .returned outcome ↔ batch.calls call = .returned outcome) ∨
      ∃ error, calls call = .returned (.error error)) :
    Durable handler handle start { batch with consumers, calls } where
  replays := durable.replays
  uncounted call waiting := by
    rcases changed call with ⟨counted, sameCall⟩ | ⟨error, returned⟩
    · rw [counted]
      exact durable.uncounted call fun outcome returned =>
        waiting outcome ((sameCall outcome).mpr returned)
    · exact absurd returned (waiting _)
  counted call returned := by
    rcases changed call with ⟨counted, sameCall⟩ | ⟨error, failed⟩
    · rw [counted]
      exact durable.counted call ((sameCall _).mp returned)
    · cases failed.symm.trans returned

theorem Ready.not_returned (ready : batch.Ready members)
    (member : call ∈ members) (outcome : Except ε PUnit) : batch.calls call ≠ .returned outcome := by
  intro returned
  have isWaiting := ready.2 call member
  rw [returned] at isWaiting
  cases isWaiting

theorem counted_of_members {shared : Shared ε ι σ}
    (same : ∀ call ∈ members, ((runMembers handler handle members shared).consumers call).counted =
      (shared.consumers call).counted) (call : Nat) :
    ((runMembers handler handle members shared).consumers call).counted = (shared.consumers call).counted := by
  by_cases member : call ∈ members
  · exact same call member
  · rw [consumers_runMembers member]

theorem Durable.shared {commit : Except ε PUnit} (durable : Durable handler handle start batch)
    (harmless : Harmless handler handle batch (.shared members commit))
    (stepped : Batch.step handler handle batch (.shared members commit) = some next) :
    Durable handler handle start next := by
  simp only [Batch.step] at stepped
  split at stepped
  · rename_i ready
    split at stepped
    · rename_i failing failed
      cases stepped
      have same := harmless.resolve_left (by simp [failed])
      refine durable.rolledBack fun call => .inl ⟨counted_of_members same call, fun outcome => ?_⟩
      by_cases failing : call = failing
      · subst failing
        rw [Function.update_self]
        exact iff_of_false (by simp) (ready.not_returned (mem_of_failed rfl failed) outcome)
      · rw [Function.update_of_ne failing]
    · rename_i error succeeded
      cases stepped
      refine durable.rolledBack fun call => ?_
      by_cases member : call ∈ members
      · exact .inr ⟨error, if_pos member⟩
      · refine .inl ⟨congrArg Consumer.counted (consumers_runMembers member _), fun outcome => ?_⟩
        rw [answer, if_neg member]
    · rename_i succeeded
      cases stepped
      obtain ⟨entries, appended, replayed, counted⟩ := entries_runMembers ready.1 succeeded
      rw [appended, begin, List.nil_append]
      refine durable.committed replayed fun call => ?_
      by_cases member : call ∈ members
      · exact .inr ⟨if_pos member,
          counted call member (durable.uncounted call (ready.not_returned member))⟩
      · exact .inl ⟨if_neg member, consumers_runMembers member _⟩
  · cases stepped

theorem Durable.retried (durable : Durable handler handle start batch)
    (harmless : Harmless handler handle batch (.retried members))
    (stepped : Batch.step handler handle batch (.retried members) = some next) :
    Durable handler handle start next := by
  simp only [Batch.step] at stepped
  split at stepped
  · cases stepped
    exact durable.rolledBack fun call => .inl ⟨counted_of_members harmless call, fun _ => .rfl⟩
  · cases stepped

theorem Durable.solo {commit : Except ε PUnit} (durable : Durable handler handle start batch)
    (stepped : Batch.step handler handle batch (.solo call commit) = some next) :
    Durable handler handle start next := by
  simp only [Batch.step] at stepped
  split at stepped
  · rename_i isSolo
    have fresh : (batch.consumers call).counted = [] := by
      refine durable.uncounted call ?_
      intro outcome returned
      rw [returned] at isSolo
      cases isSolo
    split at stepped
    · cases stepped
      refine durable.committed ?_ fun other => ?_
      · rw [consume_items]
      · by_cases same : other = call
        · subst same
          simp [Consumer.drained, fresh]
        · exact .inl ⟨Function.update_of_ne same _ _, Function.update_of_ne same _ _⟩
    · cases stepped
      refine durable.rolledBack fun other => ?_
      by_cases same : other = call
      · subst same
        exact .inr ⟨_, Function.update_self _ _ _⟩
      · rw [Function.update_of_ne same, Function.update_of_ne same]
        exact .inl ⟨rfl, fun _ => .rfl⟩
  · cases stepped

theorem Durable.step {event : BatchEvent ε} (durable : Durable handler handle start batch)
    (harmless : Harmless handler handle batch event)
    (stepped : Batch.step handler handle batch event = some next) : Durable handler handle start next := by
  cases event with
  | shared members commit => exact durable.shared harmless stepped
  | retried members => exact durable.retried harmless stepped
  | solo call commit => exact durable.solo stepped

theorem Durable.run {final : Batch ε ι σ} {events : List (BatchEvent ε)}
    (durable : Durable handler handle start batch)
    (respects : (machine handler handle).Respects (Harmless handler handle) batch events)
    (ran : (machine handler handle).run batch events = some final) : Durable handler handle start final :=
  Machine.invariant_of_run (fun _ _ _ held harmless stepped => held.step harmless stepped) durable
    respects ran

end Durability

end Batch

end Eamerald.Foundation
