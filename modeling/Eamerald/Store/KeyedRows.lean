import Eamerald.Api.Wire

/-! A map of encoded rows in which every value decodes to a row of its own key, as
the function from keys to rows that it stands for. -/

set_option autoImplicit false

namespace Eamerald.Store

variable {κ ω M : Type} [Ord κ] [Std.TransOrd κ]

/-- Every value decodes, to a row that belongs under its key. -/
def Decodes (codec : Codec ω M) (key : M → κ) (map : Std.ExtTreeMap κ ω) : Prop :=
  ∀ place value, map[place]? = some value → ∃ row, codec.unmarshal value = .ok row ∧ key row = place

def rowAt (codec : Codec ω M) (map : Std.ExtTreeMap κ ω) (place : κ) : Option M :=
  map[place]?.bind fun value => (codec.unmarshal value).toOption

section Rows

variable {codec : Codec ω M} {key : M → κ} {map : Std.ExtTreeMap κ ω}

theorem decodes_empty (codec : Codec ω M) (key : M → κ) : Decodes codec key (∅ : Std.ExtTreeMap κ ω) := by
  intro place value found
  simp at found

theorem Decodes.rowAt_eq_some (decodes : Decodes codec key map) {place : κ} {row : M} :
    rowAt codec map place = some row ↔ ∃ value, map[place]? = some value ∧ codec.unmarshal value = .ok row := by
  unfold rowAt
  cases found : map[place]? with
  | none => simp
  | some value =>
      obtain ⟨decoded, unmarshalled, _⟩ := decodes place value found
      simp [unmarshalled, Except.toOption]

theorem Decodes.key_eq (decodes : Decodes codec key map) {place : κ} {row : M}
    (found : rowAt codec map place = some row) : key row = place := by
  obtain ⟨value, stored, unmarshalled⟩ := decodes.rowAt_eq_some.mp found
  obtain ⟨decoded, again, here⟩ := decodes place value stored
  cases again.symm.trans unmarshalled
  exact here

theorem Decodes.unmarshal (decodes : Decodes codec key map) (missing : Err) (place : κ) :
    map[place]?.elim (.error missing) codec.unmarshal = (rowAt codec map place).elim (.error missing) .ok := by
  unfold rowAt
  cases found : map[place]? with
  | none => rfl
  | some value =>
      obtain ⟨decoded, unmarshalled, _⟩ := decodes place value found
      simp [unmarshalled, Except.toOption]

theorem Decodes.erase (decodes : Decodes codec key map) (place : κ) : Decodes codec key (map.erase place) := by
  intro other value found
  rw [Std.ExtTreeMap.getElem?_erase] at found
  split at found
  · cases found
  · exact decodes other value found

variable [Std.LawfulEqOrd κ]

theorem Decodes.insert (decodes : Decodes codec key map) (row : M) :
    Decodes codec key (map.insert (key row) (codec.marshal row)) := by
  intro place value found
  rw [Std.ExtTreeMap.getElem?_insert] at found
  split at found
  · rename_i same
    cases found
    exact ⟨row, codec.unmarshal_marshal row, Std.LawfulEqOrd.compare_eq_iff_eq.mp same⟩
  · exact decodes place value found

theorem Decodes.exists_key (decodes : Decodes codec key map) {entry : κ × ω}
    (listed : entry ∈ map.toList) : ∃ row, key row = entry.1 := by
  obtain ⟨row, _, here⟩ := decodes entry.1 entry.2
    (Std.ExtTreeMap.mem_toList_iff_getElem?_eq_some.mp listed)
  exact ⟨row, here⟩

theorem rowAt_insert [DecidableEq κ] (place : κ) (row : M) :
    rowAt codec (map.insert place (codec.marshal row)) =
      Function.update (rowAt codec map) place (some row) := by
  funext other
  rw [Function.update_apply]
  unfold rowAt
  rw [Std.ExtTreeMap.getElem?_insert]
  by_cases same : other = place
  · subst same
    simp [Except.toOption]
  · rw [if_neg fun equal => same (Std.LawfulEqOrd.compare_eq_iff_eq.mp equal).symm, if_neg same]

theorem rowAt_erase [DecidableEq κ] (place : κ) :
    rowAt codec (map.erase place) = Function.update (rowAt codec map) place none := by
  funext other
  rw [Function.update_apply]
  unfold rowAt
  rw [Std.ExtTreeMap.getElem?_erase]
  by_cases same : other = place
  · subst same
    simp
  · rw [if_neg fun equal => same (Std.LawfulEqOrd.compare_eq_iff_eq.mp equal).symm, if_neg same]

def decode (codec : Codec ω M) (zero : M) (entry : κ × ω) : M :=
  (codec.unmarshal entry.2).toOption.getD zero

section Decoding

variable (decodes : Decodes codec key map) (zero : M)

include decodes

theorem Decodes.decoded {entry : κ × ω} (listed : entry ∈ map.toList) :
    codec.unmarshal entry.2 = .ok (decode codec zero entry) ∧ key (decode codec zero entry) = entry.1 := by
  obtain ⟨row, unmarshalled, here⟩ := decodes entry.1 entry.2
    (Std.ExtTreeMap.mem_toList_iff_getElem?_eq_some.mp listed)
  rw [decode, unmarshalled]
  exact ⟨rfl, here⟩

variable {entries : List (κ × ω)} (listed : ∀ entry ∈ entries, entry ∈ map.toList)

include listed

theorem Decodes.map_key : (entries.map (decode codec zero)).map key = entries.map Prod.fst := by
  rw [List.map_map]
  exact List.map_congr_left fun entry member => (decodes.decoded zero (listed entry member)).2

theorem Decodes.map_with_key {γ : Type} (present : M → κ → γ) :
    (entries.map fun entry => present (decode codec zero entry) entry.1) =
      (entries.map (decode codec zero)).map fun row => present row (key row) := by
  rw [List.map_map]
  refine List.map_congr_left fun entry member => ?_
  exact congrArg (present _) (decodes.decoded zero (listed entry member)).2.symm

theorem Decodes.map_filter (accept : κ → Bool) :
    (entries.filter fun entry => accept entry.1).map (decode codec zero) =
      (entries.map (decode codec zero)).filter fun row => accept (key row) := by
  rw [List.filter_map]
  congr 1
  refine List.filter_congr fun entry member => ?_
  exact congrArg accept (decodes.decoded zero (listed entry member)).2.symm

omit listed in
theorem Decodes.mem_map (accept : κ → Bool)
    (selected : ∀ entry, entry ∈ entries ↔ entry ∈ map.toList ∧ accept entry.1 = true) {row : M} :
    row ∈ entries.map (decode codec zero) ↔ rowAt codec map (key row) = some row ∧ accept (key row) = true := by
  rw [List.mem_map, decodes.rowAt_eq_some]
  constructor
  · rintro ⟨entry, member, rfl⟩
    obtain ⟨there, accepted⟩ := (selected entry).mp member
    obtain ⟨unmarshalled, here⟩ := decodes.decoded zero there
    rw [here]
    exact ⟨⟨entry.2, Std.ExtTreeMap.mem_toList_iff_getElem?_eq_some.mp there, unmarshalled⟩, accepted⟩
  · rintro ⟨⟨value, stored, unmarshalled⟩, accepted⟩
    refine ⟨(key row, value), (selected _).mpr ⟨?_, accepted⟩, ?_⟩
    · exact Std.ExtTreeMap.mem_toList_iff_getElem?_eq_some.mpr stored
    · rw [decode, unmarshalled]
      rfl

end Decoding

theorem Decodes.values (decodes : Decodes codec key map) (zero : M) {entries : List (κ × ω)}
    (all : entries.Perm map.toList) :
    ((entries.map fun entry => (codec.unmarshal entry.2).toOption.getD zero).map key).Nodup ∧
      ∀ row, row ∈ entries.map (fun entry => (codec.unmarshal entry.2).toOption.getD zero) ↔
        rowAt codec map (key row) = some row := by
  have listed (entry : κ × ω) : entry ∈ entries ↔ entry ∈ map.toList ∧ true = true := by
    simp [all.mem_iff]
  constructor
  · change ((entries.map (decode codec zero)).map key).Nodup
    rw [decodes.map_key zero fun entry member => ((listed entry).mp member).1]
    refine (all.map Prod.fst).nodup_iff.mpr (List.pairwise_map.mpr ?_)
    refine Std.ExtTreeMap.ordered_keys_toList.imp fun {left right} increasing same => ?_
    rw [same, Std.ReflOrd.compare_self] at increasing
    cases increasing
  · intro row
    exact (decodes.mem_map zero (fun _ => true) listed).trans (and_iff_left rfl)

end Rows

/-- A map that is being filled with rows: it has the rows written so far, and no others than
the ones meant for it. -/
structure Filling (codec : Codec ω M) (key : M → κ) (rows : κ → Option M) (written : List M)
    (map : Std.ExtTreeMap κ ω) : Prop where
  decodes : Decodes codec key map
  sound : ∀ place row, rowAt codec map place = some row → rows place = some row
  complete : ∀ row ∈ written, rowAt codec map (key row) = some row

section Filling

variable {codec : Codec ω M} {key : M → κ} {rows : κ → Option M} {written : List M}
  {map : Std.ExtTreeMap κ ω}

theorem filling_empty (codec : Codec ω M) (key : M → κ) (rows : κ → Option M) :
    Filling codec key rows [] (∅ : Std.ExtTreeMap κ ω) := by
  refine ⟨decodes_empty codec key, fun place row found => ?_, fun row member => ?_⟩
  · simp [rowAt] at found
  · cases member

theorem Filling.insert [Std.LawfulEqOrd κ] [DecidableEq κ]
    (filling : Filling codec key rows written map) {row : M} (belongs : rows (key row) = some row) :
    Filling codec key rows (row :: written) (map.insert (key row) (codec.marshal row)) := by
  refine ⟨filling.decodes.insert row, ?_, ?_⟩
  · intro place other found
    rw [rowAt_insert, Function.update_apply] at found
    split at found
    · rename_i same
      cases found
      exact same ▸ belongs
    · exact filling.sound place other found
  · intro other member
    rw [rowAt_insert, Function.update_apply]
    split
    · -- a row written before under this key is the same one
      rename_i same
      rcases List.mem_cons.mp member with rfl | earlier
      · rfl
      · have there := filling.sound _ _ (filling.complete other earlier)
        rw [same, belongs] at there
        exact there
    · rename_i different
      rcases List.mem_cons.mp member with rfl | earlier
      · exact absurd rfl different
      · exact filling.complete other earlier

theorem Filling.rowAt_eq (filling : Filling codec key rows written map)
    (all : ∀ place row, rows place = some row → row ∈ written ∧ key row = place) : rowAt codec map = rows := by
  funext place
  cases meant : rows place with
  | none =>
      cases found : rowAt codec map place with
      | none => rfl
      | some row => exact absurd (filling.sound place row found) (by simp [meant])
  | some row =>
      obtain ⟨member, here⟩ := all place row meant
      rw [← here]
      exact filling.complete row member

end Filling

end Eamerald.Store
