import Eamerald.Git.Serving

/-! What a configured ref resolves to. The resolver strips the namespace from the ref, tries
the name as a remote-tracking branch and as a tag, and then the ref itself, so that a ref can
be answered from a namespace it does not name. -/

set_option autoImplicit false

namespace Eamerald.Git

open Foundation

def IsShort (ref : GoString) : Prop :=
  ref.dropPrefix? headsPrefix = none ∧ ref.dropPrefix? tagsPrefix = none

instance {ref : GoString} : Decidable (IsShort ref) := inferInstanceAs (Decidable (_ ∧ _))

/-- The remote branch of a name, or else the tag. -/
def Clone.branchOrTag (clone : Clone) (name : GoString) : Option Hash :=
  (clone.tracking name).or (clone.tags name)

/-- The reference that a revision stands for; a branch by its full name stands for itself. -/
def expanded (expand : GoString → Option GoString) (revision : GoString) : Option GoString :=
  if (revision.dropPrefix? headsPrefix).isSome then some revision else expand revision

/-- A revision that stands for a local branch resolves to the commit of that branch. -/
def Expands (clone : Clone) (expand : GoString → Option GoString) : Prop :=
  ∀ revision name, expand revision = some (headsPrefix ++ name) →
    clone.resolveRevision revision = clone.others (headsPrefix ++ name)

/-- The answer is the commit of a local branch. -/
def ResolvesLocally (clone : Clone) (expand : GoString → Option GoString) (ref : GoString) : Prop :=
  clone.branchOrTag (shortName ref) = none ∧
    ∃ name hash, expanded expand ref = some (headsPrefix ++ name) ∧
      clone.others (headsPrefix ++ name) = some hash ∧ resolveRef clone ref = .ok hash

@[mk_iff]
structure ResolvesAsNamed (clone : Clone) (expand : GoString → Option GoString) (ref : GoString) :
    Prop where
  tag : ∀ name, ref = tagsPrefix ++ name → (resolveRef clone ref).toOption = clone.tags name
  branch : ∀ name, ref = headsPrefix ++ name → (resolveRef clone ref).toOption = clone.tracking name
  short : IsShort ref → ∀ hash, clone.branchOrTag ref = some hash → resolveRef clone ref = .ok hash
  notLocal : ¬ ResolvesLocally clone expand ref

/-- No branch hides a tag, nothing stands in for a branch, and no local branch for what is gone. -/
@[mk_iff]
structure Unshadowed (clone : Clone) (expand : GoString → Option GoString) (ref : GoString) :
    Prop where
  tag : ∀ name, ref = tagsPrefix ++ name → clone.branchOrTag name = clone.tags name
  branch : ∀ name, ref = headsPrefix ++ name →
    clone.branchOrTag (trimPrefix name tagsPrefix) = clone.tracking name ∧
      (clone.tracking name = none → clone.others ref = none)
  short : IsShort ref → clone.branchOrTag ref = none →
    ∀ name, expand ref = some (headsPrefix ++ name) → clone.others (headsPrefix ++ name) = none

section Resolution

variable {clone : Clone} {expand : GoString → Option GoString} {ref name : GoString}

theorem ref_cases (ref : GoString) :
    (∃ name, ref = tagsPrefix ++ name) ∨ (∃ name, ref = headsPrefix ++ name) ∨ IsShort ref := by
  cases tag : ref.dropPrefix? tagsPrefix with
  | some name => exact .inl ⟨name, eq_append_of_dropPrefix tag⟩
  | none =>
      cases branch : ref.dropPrefix? headsPrefix with
      | some name => exact .inr (.inl ⟨name, eq_append_of_dropPrefix branch⟩)
      | none => exact .inr (.inr ⟨branch, tag⟩)

theorem tags_not_heads (name : GoString) : (tagsPrefix ++ name).dropPrefix? headsPrefix = none :=
  dropPrefix_of_take_ne 6 name (by decide +kernel) (by decide +kernel) (by decide +kernel)

theorem shortName_tag : shortName (tagsPrefix ++ name) = name := by
  rw [shortName, trimPrefix_of_none (tags_not_heads name), trimPrefix_append]

theorem shortName_head : shortName (headsPrefix ++ name) = trimPrefix name tagsPrefix := by
  rw [shortName, trimPrefix_append]

theorem shortName_short (short : IsShort ref) : shortName ref = ref := by
  rw [shortName, trimPrefix_of_none short.1, trimPrefix_of_none short.2]

theorem toOption_resolveRef : (resolveRef clone ref).toOption =
      (clone.branchOrTag (shortName ref)).or (clone.resolveRevision ref) := by
  rw [Clone.branchOrTag, Option.or_assoc]
  cases resolved : resolveRef clone ref with
  | ok hash => exact (resolveRef_eq_ok.mp resolved).symm
  | error fault =>
      cases found : (clone.tracking (shortName ref)).or
          ((clone.tags (shortName ref)).or (clone.resolveRevision ref)) with
      | none => rfl
      | some hash =>
          rw [resolveRef_eq_ok.mpr found] at resolved
          cases resolved

theorem resolveRef_of_toOption {hash : Hash} (found : (resolveRef clone ref).toOption = some hash) :
    resolveRef clone ref = .ok hash := by
  cases resolved : resolveRef clone ref with
  | ok other =>
      rw [resolved] at found
      cases found
      rfl
  | error fault =>
      rw [resolved] at found
      cases found

theorem not_short_tag : ¬ IsShort (tagsPrefix ++ name) := by
  intro short
  have cut := short.2
  rw [dropPrefix_append] at cut
  cases cut

theorem not_short_head : ¬ IsShort (headsPrefix ++ name) := by
  intro short
  have cut := short.1
  rw [dropPrefix_append] at cut
  cases cut

theorem tags_ne_heads {other : GoString} : tagsPrefix ++ name ≠ headsPrefix ++ other := by
  intro same
  have cut := tags_not_heads name
  rw [same, dropPrefix_append] at cut
  cases cut

theorem toOption_tag : (resolveRef clone (tagsPrefix ++ name)).toOption = clone.branchOrTag name := by
  rw [toOption_resolveRef, shortName_tag, resolveRevision_tag, Clone.branchOrTag, Option.or_assoc,
    Option.or_self]

theorem toOption_head : (resolveRef clone (headsPrefix ++ name)).toOption =
      (clone.branchOrTag (trimPrefix name tagsPrefix)).or (clone.others (headsPrefix ++ name)) := by
  rw [toOption_resolveRef, shortName_head, resolveRevision_head]

theorem toOption_short (short : IsShort ref) :
    (resolveRef clone ref).toOption = (clone.branchOrTag ref).or (clone.resolveRevision ref) := by
  rw [toOption_resolveRef, shortName_short short]

theorem asNamed_tag_iff : ResolvesAsNamed clone expand (tagsPrefix ++ name) ↔
      Unshadowed clone expand (tagsPrefix ++ name) := by
  have remote : ¬ ResolvesLocally clone expand (tagsPrefix ++ name) := by
    rintro ⟨missing, _, hash, _, _, resolved⟩
    rw [shortName_tag] at missing
    have found : (resolveRef clone (tagsPrefix ++ name)).toOption = none := toOption_tag.trans missing
    rw [resolved] at found
    cases found
  rw [resolvesAsNamed_iff, unshadowed_iff]
  simp [tags_ne_heads, not_short_tag, remote, toOption_tag]

theorem locally_head_iff : ResolvesLocally clone expand (headsPrefix ++ name) ↔
      clone.branchOrTag (trimPrefix name tagsPrefix) = none ∧
        ∃ hash, clone.others (headsPrefix ++ name) = some hash := by
  constructor
  · rintro ⟨missing, other, hash, stands, found, -⟩
    rw [shortName_head] at missing
    rw [expanded, dropPrefix_append, Option.isSome_some, if_pos rfl] at stands
    cases List.append_cancel_left (Option.some.inj stands)
    exact ⟨missing, hash, found⟩
  · rintro ⟨missing, hash, found⟩
    refine ⟨by rwa [shortName_head], name, hash, ?_, found, resolveRef_of_toOption ?_⟩
    · rw [expanded, dropPrefix_append, Option.isSome_some, if_pos rfl]
    · rw [toOption_head, missing, found]
      rfl

theorem asNamed_head_iff : ResolvesAsNamed clone expand (headsPrefix ++ name) ↔
      Unshadowed clone expand (headsPrefix ++ name) := by
  rw [resolvesAsNamed_iff, unshadowed_iff]
  simp only [tags_ne_heads.symm, not_short_head, locally_head_iff, toOption_head,
    List.append_cancel_left_eq, forall_eq', false_imp_iff, implies_true, true_and, and_true]
  cases clone.branchOrTag (trimPrefix name tagsPrefix) <;>
    cases clone.others (headsPrefix ++ name) <;> cases clone.tracking name <;> simp

theorem locally_short_iff (expands : Expands clone expand) (short : IsShort ref) :
    ResolvesLocally clone expand ref ↔
      clone.branchOrTag ref = none ∧ ∃ name hash, expand ref = some (headsPrefix ++ name) ∧
        clone.others (headsPrefix ++ name) = some hash := by
  have same : expanded expand ref = expand ref := by
    rw [expanded, short.1]
    rfl
  rw [ResolvesLocally, shortName_short short, same]
  refine and_congr_right fun missing => exists₂_congr fun name hash => ?_
  refine and_congr_right fun stands => and_iff_left_of_imp fun found => ?_
  apply resolveRef_of_toOption
  rw [toOption_short short, missing, expands ref name stands, found]
  rfl

theorem asNamed_short_iff (expands : Expands clone expand) (short : IsShort ref) :
    ResolvesAsNamed clone expand ref ↔ Unshadowed clone expand ref := by
  have noTag (name : GoString) : ref ≠ tagsPrefix ++ name := fun same => not_short_tag (same ▸ short)
  have noHead (name : GoString) : ref ≠ headsPrefix ++ name := fun same => not_short_head (same ▸ short)
  have answered (hash : Hash) (found : clone.branchOrTag ref = some hash) :
      resolveRef clone ref = .ok hash := by
    apply resolveRef_of_toOption
    rw [toOption_short short, found]
    rfl
  rw [resolvesAsNamed_iff, unshadowed_iff, locally_short_iff expands short]
  simp only [noTag, noHead, short, false_imp_iff, implies_true, true_and, forall_const]
  simp only [iff_true_intro answered, true_and, not_and, not_exists, Option.eq_none_iff_forall_ne_some]
  grind

/-- A ref resolves to what it names, and never to a local branch, exactly if nothing that the
resolver tries before or after it hides that. -/
theorem resolveRef_asNamed_iff (clone : Clone) (expand : GoString → Option GoString)
    (expands : Expands clone expand) (ref : GoString) :
    ResolvesAsNamed clone expand ref ↔ Unshadowed clone expand ref := by
  rcases ref_cases ref with ⟨name, rfl⟩ | ⟨name, rfl⟩ | short
  · exact asNamed_tag_iff
  · exact asNamed_head_iff
  · exact asNamed_short_iff expands short

end Resolution

section Clones

/-- A clone with a branch and a tag of one name, a tag alone, and a local branch whose remote
branch was never fetched. -/
def crowdedClone : Clone where
  origin := "https://example.com/policies.git".toList
  tracking name := if name = "v1".toList then some "c1".toList else none
  tags name :=
    if name = "v1".toList then some "c2".toList
    else if name = "old".toList then some "c3".toList else none
  others revision :=
    if revision ∈ ["refs/heads/gone".toList, "gone".toList] then some "c4".toList else none

/-- The short name of the local branch stands for it. -/
def expandGone (revision : GoString) : Option GoString :=
  if revision = "gone".toList then some "refs/heads/gone".toList else none

theorem expands_gone : Expands crowdedClone expandGone := by
  intro revision name stands
  unfold expandGone at stands
  split at stands
  · next here =>
      rw [here, ← Option.some.inj stands]
      decide +kernel
  · cases stands

theorem branch_before_tag :
    Expands crowdedClone expandGone ∧ ResolvesAsNamed crowdedClone expandGone "v1".toList := by
  refine ⟨expands_gone, (resolveRef_asNamed_iff crowdedClone expandGone expands_gone _).mpr ?_⟩
  have short : IsShort "v1".toList := by decide +kernel
  refine ⟨?_, ?_, ?_⟩
  · intro name same
    exact absurd (same ▸ short) not_short_tag
  · intro name same
    exact absurd (same ▸ short) not_short_head
  · intro _ missing
    exact absurd missing (by decide +kernel)

/-- The configured tag gives the commit of the branch, a branch that does not exist gives the
commit of a tag, and another one that of a local branch, also by its short name. -/
theorem refs_resolve_elsewhere :
    (resolveRef crowdedClone "refs/tags/v1".toList = .ok "c1".toList ∧
        crowdedClone.tags "v1".toList = some "c2".toList) ∧
      (resolveRef crowdedClone "refs/heads/old".toList = .ok "c3".toList ∧
        crowdedClone.tracking "old".toList = none) ∧
      (resolveRef crowdedClone "refs/heads/gone".toList = .ok "c4".toList ∧
        crowdedClone.tracking "gone".toList = none) ∧
      resolveRef crowdedClone "gone".toList = .ok "c4".toList := by
  simp only [resolveRef_eq_ok]
  decide +kernel

end Clones

end Eamerald.Git
