import Mathlib

/-! Maps that hold a finite set of items, each encoded under its own key. -/

set_option autoImplicit false

namespace Eamerald.Foundation

variable {κ α β γ : Type} [Ord κ] [Std.TransOrd κ]

/-- The entries of the map are exactly the items, each under its key. -/
def Tabulates (map : Std.ExtTreeMap κ β) (key : α → κ) (encode : α → β) (items : Finset α) :
    Prop :=
  ∀ place value, map[place]? = some value ↔
    ∃ item ∈ items, place = key item ∧ value = encode item

namespace Tabulates

variable {map : Std.ExtTreeMap κ β} {key : α → κ} {encode : α → β} {items : Finset α}

theorem empty (key : α → κ) (encode : α → β) : Tabulates (∅ : Std.ExtTreeMap κ β) key encode ∅ := by
  intro place value
  simp

theorem getElem? (tabulates : Tabulates map key encode items) {item : α} (member : item ∈ items) :
    map[key item]? = some (encode item) :=
  (tabulates _ _).mpr ⟨item, member, rfl, rfl⟩

theorem key_injOn (tabulates : Tabulates map key encode items)
    (injective : Function.Injective encode) : Set.InjOn key items := by
  intro item member other otherMember same
  have first := tabulates.getElem? member
  have second := tabulates.getElem? otherMember
  rw [same, second] at first
  exact injective (Option.some.inj first).symm

theorem ext {others : Finset α} (tabulates : Tabulates map key encode items)
    (alsoTabulates : Tabulates map key encode others) (injective : Function.Injective encode) :
    items = others := by
  ext item
  constructor
  · intro member
    obtain ⟨other, otherMember, _, same⟩ := (alsoTabulates _ _).mp (tabulates.getElem? member)
    exact injective same ▸ otherMember
  · intro member
    obtain ⟨other, otherMember, _, same⟩ := (tabulates _ _).mp (alsoTabulates.getElem? member)
    exact injective same ▸ otherMember

variable [Std.LawfulEqOrd κ]

theorem insert [DecidableEq α] [DecidableEq κ] (tabulates : Tabulates map key encode items) (item : α) :
    Tabulates (map.insert (key item) (encode item)) key encode
      (insert item (items.filter fun other => key other ≠ key item)) := by
  intro place value
  rw [Std.ExtTreeMap.getElem?_insert]
  by_cases same : key item = place
  · subst same
    simp only [Std.ReflOrd.compare_self, ↓reduceIte, Option.some.injEq, Finset.mem_insert,
      Finset.mem_filter]
    constructor
    · intro written
      exact ⟨item, .inl rfl, rfl, written.symm⟩
    · intro found
      obtain ⟨other, rfl | ⟨_, different⟩, place, written⟩ := found
      · exact written.symm
      · exact False.elim (different place.symm)
  · rw [if_neg fun equal => same (Std.LawfulEqOrd.compare_eq_iff_eq.mp equal), tabulates]
    simp only [Finset.mem_insert, Finset.mem_filter]
    constructor
    · intro found
      obtain ⟨other, member, rfl, rfl⟩ := found
      exact ⟨other, .inr ⟨member, fun equal => same equal.symm⟩, rfl, rfl⟩
    · intro found
      obtain ⟨other, rfl | ⟨member, _⟩, rfl, rfl⟩ := found
      · exact False.elim (same rfl)
      · exact ⟨other, member, rfl, rfl⟩

theorem erase [DecidableEq κ] (tabulates : Tabulates map key encode items) (place : κ) :
    Tabulates (map.erase place) key encode (items.filter fun other => key other ≠ place) := by
  intro other value
  rw [Std.ExtTreeMap.getElem?_erase]
  by_cases same : place = other
  · subst same
    simp only [Std.ReflOrd.compare_self, ↓reduceIte, reduceCtorEq, Finset.mem_filter, false_iff]
    intro found
    obtain ⟨item, ⟨_, different⟩, equal, _⟩ := found
    exact different equal.symm
  · rw [if_neg fun equal => same (Std.LawfulEqOrd.compare_eq_iff_eq.mp equal), tabulates]
    simp only [Finset.mem_filter]
    constructor
    · intro found
      obtain ⟨item, member, rfl, rfl⟩ := found
      exact ⟨item, ⟨member, fun equal => same equal.symm⟩, rfl, rfl⟩
    · intro found
      obtain ⟨item, ⟨member, _⟩, rfl, rfl⟩ := found
      exact ⟨item, member, rfl, rfl⟩

theorem mem_toList (tabulates : Tabulates map key encode items) {entry : κ × β} :
    entry ∈ map.toList ↔ ∃ item ∈ items, entry = (key item, encode item) := by
  rw [Std.ExtTreeMap.mem_toList_iff_getElem?_eq_some, tabulates]
  constructor
  · intro found
    obtain ⟨item, member, place, written⟩ := found
    exact ⟨item, member, Prod.ext place written⟩
  · intro found
    obtain ⟨item, member, rfl⟩ := found
    exact ⟨item, member, rfl, rfl⟩

theorem nodup_toList (map : Std.ExtTreeMap κ β) : map.toList.Nodup := by
  refine (Std.ExtTreeMap.ordered_keys_toList (t := map)).imp fun {left right} increasing same => ?_
  rw [same, Std.ReflOrd.compare_self] at increasing
  cases increasing

theorem read_filter (tabulates : Tabulates map key encode items) (read : κ × β → γ)
    (content : α → γ) (reads : ∀ item ∈ items, read (key item, encode item) = content item)
    (distinct : Set.InjOn content items) (test : κ × β → Bool) : ((map.toList.filter test).map read).Nodup ∧
      ∀ result, result ∈ (map.toList.filter test).map read ↔
        ∃ item ∈ items, test (key item, encode item) = true ∧ content item = result := by
  constructor
  · refine List.Nodup.map_on ?_ ((nodup_toList map).filter test)
    intro left leftMember right rightMember same
    obtain ⟨first, firstMember, rfl⟩ := tabulates.mem_toList.mp (List.mem_of_mem_filter leftMember)
    obtain ⟨second, secondMember, rfl⟩ :=
      tabulates.mem_toList.mp (List.mem_of_mem_filter rightMember)
    rw [reads first firstMember, reads second secondMember] at same
    rw [distinct firstMember secondMember same]
  · intro result
    rw [List.mem_map]
    constructor
    · intro found
      obtain ⟨entry, entryMember, rfl⟩ := found
      obtain ⟨listed, passes⟩ := List.mem_filter.mp entryMember
      obtain ⟨item, member, rfl⟩ := tabulates.mem_toList.mp listed
      exact ⟨item, member, passes, (reads item member).symm⟩
    · intro found
      obtain ⟨item, member, passes, rfl⟩ := found
      refine ⟨(key item, encode item), List.mem_filter.mpr ⟨?_, passes⟩, reads item member⟩
      exact tabulates.mem_toList.mpr ⟨item, member, rfl⟩

end Tabulates

end Eamerald.Foundation
