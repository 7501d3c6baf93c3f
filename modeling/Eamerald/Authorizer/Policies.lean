import Eamerald.Api.Text

/-! Which of the loaded policies an access request is evaluated against. A request
selects a package under `doelbinding` through its context; a request that selects none
gets the policy root the instance serves. -/

set_option autoImplicit false

namespace Eamerald.Authorizer

variable {packages : List GoString} {roots : List GoString} {root : GoString}
  {configured : GoString}

/-- A protobuf value, `none` when no kind is set. -/
abbrev Value := Option PropertyValue

abbrev Struct := Std.ExtTreeMap GoString Value

def getStringValue : Value → GoString
  | some (.string text) => text
  | _ => []

/-- A nil struct has no entries, and a missing entry reads as the empty text. -/
def stringProperty (properties : Option Struct) (key : GoString) : GoString :=
  ((properties.bind (·[key]?)).map getStringValue).getD []

/-- The parts a message is formatted from; `quoted` is Go's `%q`. -/
inductive Piece where
  | text (plain : String)
  | plain (value : GoString)
  | quoted (value : GoString)
  | number (value : Nat)
deriving DecidableEq, Repr

inductive Aerr where
  | invalidArgument
  | invalidPolicyID
  | badRuntime
  | badQuery
  | resolvingSubject
  | resolvingUser
  | authenticationFailed
deriving DecidableEq, Repr

inductive Failure where
  | plain (message : List Piece)
  | aerr (kind : Aerr) (message : List Piece)
  | wrapped (kind : Aerr) (cause : Failure) (message : List Piece)
deriving DecidableEq, Repr

def addRoot (roots : List GoString) (package : GoString) : List GoString :=
  let root := (cut '.' package).1
  if root ≠ [] ∧ root ∉ roots then roots ++ [root] else roots

def policyRoots (packages : List GoString) : List GoString := packages.foldl addRoot []

def joined (roots : List GoString) : List Piece :=
  (roots.map Piece.plain).intersperse (.text ", ")

def selectPolicyRoot (configured : GoString) (roots : List GoString) : Except Failure GoString :=
  if roots.length = 0 then .error (.plain [.text "no policy loaded"])
  else if configured ≠ [] then
    if configured ∉ roots then .error (.plain
      ([.text "opa.policy_root ", .quoted configured, .text " is not loaded; loaded policies are ["]
        ++ joined roots ++ [.text "]"]))
    else .ok configured
  else
    match roots with
    | [root] => .ok root
    | _ => .error (.plain
        ([.number roots.length, .text " policies are loaded ["] ++ joined roots ++
          [.text "] and the request selected none: set opa.policy_root, or select one per request"]))

def doelbindingKey : GoString := "doelbinding".toList

def doelbindingPrefix : GoString := "doelbinding".toList

def defaultPolicyRoots (packages : List GoString) : List GoString :=
  (policyRoots packages).filter (· ≠ doelbindingPrefix)

def doelbindingPolicy (packages : List GoString) (selected : GoString) : Except Failure GoString :=
  let path := doelbindingPrefix ++ '.' :: selected
  if path ∉ packages then .error (.aerr .invalidArgument
    [.text "doelbinding ", .quoted selected,
      .text " selects no loaded policy; expected a bundle carrying `package ", .plain path,
      .text "`"])
  else .ok path

def policyPath (configured : GoString) (loaded : Except Failure (List GoString))
    (reqContext : Option Struct) : Except Failure GoString :=
  match loaded with
  | .error cause =>
      .error (.wrapped .badRuntime cause [.text "failed to list the loaded policies"])
  | .ok packages =>
      let selected := stringProperty reqContext doelbindingKey
      if selected = [] then
        match selectPolicyRoot configured (defaultPolicyRoots packages) with
        | .error cause => .error (.wrapped .badRuntime cause [.text "no policy to evaluate"])
        | .ok policyRoot => .ok policyRoot
      else doelbindingPolicy packages selected

section Roots

theorem mem_addRoot {package : GoString} :
    root ∈ addRoot roots package ↔ root ∈ roots ∨ (root ≠ [] ∧ root = (cut '.' package).1) := by
  simp only [addRoot]
  split
  case isTrue fresh =>
    simp only [List.mem_append, List.mem_singleton]
    constructor
    · rintro (old | rfl)
      · exact .inl old
      · exact .inr ⟨fresh.1, rfl⟩
    · rintro (old | ⟨_, added⟩)
      · exact .inl old
      · exact .inr added
  case isFalse known =>
    constructor
    · exact .inl
    · rintro (old | ⟨nonempty, rfl⟩)
      · exact old
      · by_contra absent
        exact known ⟨nonempty, absent⟩

theorem nodup_addRoot (nodup : roots.Nodup) (package : GoString) : (addRoot roots package).Nodup := by
  simp only [addRoot]
  split
  case isTrue fresh =>
    refine nodup.append (List.nodup_singleton _) ?_
    simpa using fresh.2
  case isFalse => exact nodup

theorem mem_foldl_addRoot : root ∈ packages.foldl addRoot roots ↔
      root ∈ roots ∨ (root ≠ [] ∧ ∃ package ∈ packages, root = (cut '.' package).1) := by
  induction packages generalizing roots with
  | nil => simp
  | cons package packages ih =>
      simp only [List.foldl_cons, ih, mem_addRoot, List.mem_cons, exists_eq_or_imp]
      tauto

theorem nodup_foldl_addRoot (nodup : roots.Nodup) : (packages.foldl addRoot roots).Nodup := by
  induction packages generalizing roots with
  | nil => exact nodup
  | cons package packages ih => exact ih (nodup_addRoot nodup package)

theorem mem_defaultPolicyRoots : root ∈ defaultPolicyRoots packages ↔
      root ≠ doelbindingPrefix ∧ root ≠ [] ∧ ∃ package ∈ packages, root = (cut '.' package).1 := by
  simp only [defaultPolicyRoots, policyRoots, List.mem_filter, mem_foldl_addRoot,
    List.not_mem_nil, false_or, decide_eq_true_eq]
  tauto

theorem defaultPolicyRoots_perm {others : List GoString} (reordered : packages.Perm others) :
    (defaultPolicyRoots packages).Perm (defaultPolicyRoots others) := by
  have nodup (listed : List GoString) : (defaultPolicyRoots listed).Nodup :=
    (nodup_foldl_addRoot List.nodup_nil).filter _
  refine (List.perm_ext_iff_of_nodup (nodup packages) (nodup others)).mpr fun root => ?_
  simp only [mem_defaultPolicyRoots, reordered.mem_iff]

end Roots

section Selection

variable {configured root : GoString} {roots : List GoString}

theorem selectPolicyRoot_ok_iff : selectPolicyRoot configured roots = .ok root ↔
      (configured ≠ [] ∧ root = configured ∧ configured ∈ roots) ∨ (configured = [] ∧ roots = [root]) := by
  unfold selectPolicyRoot
  split
  case isTrue empty =>
    obtain rfl := List.length_eq_zero_iff.mp empty
    simp
  case isFalse some =>
    split
    case isTrue set =>
      split
      case isTrue absent => simp [absent, set]
      case isFalse present =>
        have loaded := not_not.mp present
        simp [set, loaded, eq_comm]
    case isFalse unset =>
      have blank := not_not.mp unset
      split
      case h_1 only => simp [blank]
      case h_2 many =>
        constructor
        · intro failed
          cases failed
        · rintro (⟨set, _⟩ | ⟨_, single⟩)
          · exact absurd blank set
          · exact absurd single (many root)

theorem selectPolicyRoot_perm {others : List GoString} (reordered : roots.Perm others)
    (selected : selectPolicyRoot configured roots = .ok root) :
    selectPolicyRoot configured others = .ok root := by
  rw [selectPolicyRoot_ok_iff] at selected ⊢
  rcases selected with ⟨set, chosen, present⟩ | ⟨blank, rfl⟩
  · exact .inl ⟨set, chosen, reordered.mem_iff.mp present⟩
  · exact .inr ⟨blank, List.perm_singleton.mp reordered.symm⟩

theorem doelbindingPolicy_ok_iff {selected path : GoString} : doelbindingPolicy packages selected = .ok path ↔
      path = doelbindingPrefix ++ '.' :: selected ∧ path ∈ packages := by
  simp only [doelbindingPolicy]
  split
  case isTrue absent =>
    constructor
    · intro failed
      cases failed
    · rintro ⟨rfl, present⟩
      exact absurd present absent
  case isFalse present =>
    constructor
    · intro found
      cases found
      exact ⟨rfl, not_not.mp present⟩
    · rintro ⟨rfl, _⟩
      rfl

def doelbinding? (reqContext : Option Struct) : Option Value :=
  reqContext.bind (·[doelbindingKey]?)

theorem stringProperty_doelbinding (reqContext : Option Struct) : stringProperty reqContext doelbindingKey =
      ((doelbinding? reqContext).map getStringValue).getD [] := rfl

/-- What a request gets when it selects by its context, and when it does not. -/
theorem policyPath_ok_iff {reqContext : Option Struct} {path : GoString} :
    policyPath configured (.ok packages) reqContext = .ok path ↔
      (stringProperty reqContext doelbindingKey = [] ∧
          selectPolicyRoot configured (defaultPolicyRoots packages) = .ok path) ∨
        (stringProperty reqContext doelbindingKey ≠ [] ∧
          path = doelbindingPrefix ++ '.' :: stringProperty reqContext doelbindingKey ∧ path ∈ packages) := by
  simp only [policyPath]
  split
  case isTrue blank =>
    cases selected : selectPolicyRoot configured (defaultPolicyRoots packages) with
    | error cause => simp [blank]
    | ok policyRoot => simp [blank]
  case isFalse set => simp [set, doelbindingPolicy_ok_iff]

end Selection

/-- A request with a `doelbinding` entry gets the loaded package that the entry names, or none. One
without gets a loaded root outside `doelbinding`, whatever the order of the packages. -/
def Contained (configured : GoString) (packages : List GoString) (reqContext : Option Struct) :
    Prop :=
  (∀ value, doelbinding? reqContext = some value →
    ∀ path, policyPath configured (.ok packages) reqContext = .ok path →
      path ∈ packages ∧ path = doelbindingPrefix ++ '.' :: getStringValue value) ∧
  (doelbinding? reqContext = none →
    ∀ path, policyPath configured (.ok packages) reqContext = .ok path →
      (∃ package ∈ packages, path = (cut '.' package).1) ∧ path ≠ doelbindingPrefix ∧
      (configured ≠ [] → path = configured) ∧
      ∀ others, packages.Perm others → policyPath configured (.ok others) reqContext = .ok path)

/-- The context has the entry, but with a value that reads as the empty text: an empty string,
or a number, a boolean, a list. -/
def BlankSelection (reqContext : Option Struct) : Prop :=
  ∃ value, doelbinding? reqContext = some value ∧ getStringValue value = []

theorem ne_of_mem_defaultPolicyRoots (served : root ∈ defaultPolicyRoots packages) (selected : GoString) :
    root ≠ doelbindingPrefix ++ '.' :: selected := by
  obtain ⟨_, _, package, _, rfl⟩ := mem_defaultPolicyRoots.mp served
  intro same
  have dotted : '.' ∈ (cut '.' package).1 := by simp [same]
  by_cases present : '.' ∈ package
  · obtain ⟨first, rest, rfl, free⟩ := List.eq_append_cons_of_mem present
    rw [cut_append rest free] at dotted
    exact free dotted
  · rw [cut_of_not_mem present] at dotted
    exact present dotted

theorem mem_of_selectPolicyRoot (selected : selectPolicyRoot configured roots = .ok root) : root ∈ roots := by
  rcases selectPolicyRoot_ok_iff.mp selected with ⟨_, rfl, present⟩ | ⟨_, rfl⟩
  · exact present
  · exact List.mem_singleton_self root

theorem contained_of_no_entry {reqContext : Option Struct} (absent : doelbinding? reqContext = none) :
    Contained configured packages reqContext := by
  refine ⟨fun value found => (nomatch absent.symm.trans found), fun _ path evaluated => ?_⟩
  have blank : stringProperty reqContext doelbindingKey = [] := by
    rw [stringProperty_doelbinding, absent]
    rfl
  rcases policyPath_ok_iff.mp evaluated with ⟨_, selected⟩ | ⟨set, _⟩
  · obtain ⟨outside, _, loaded⟩ := mem_defaultPolicyRoots.mp (mem_of_selectPolicyRoot selected)
    refine ⟨loaded, outside, fun set => ?_, fun others reordered => ?_⟩
    · rcases selectPolicyRoot_ok_iff.mp selected with ⟨_, chosen, _⟩ | ⟨unset, _⟩
      · exact chosen
      · exact absurd unset set
    · exact policyPath_ok_iff.mpr
        (.inl ⟨blank, selectPolicyRoot_perm (defaultPolicyRoots_perm reordered) selected⟩)
  · exact absurd blank set

/-- An entry that reads as the empty text falls back to a default root. -/
theorem contained_iff_of_entry
    {reqContext : Option Struct} {value : Value} (present : doelbinding? reqContext = some value) :
    Contained configured packages reqContext ↔ ¬(getStringValue value = [] ∧
        ∃ root, selectPolicyRoot configured (defaultPolicyRoots packages) = .ok root) := by
  have read : stringProperty reqContext doelbindingKey = getStringValue value := by
    rw [stringProperty_doelbinding, present]
    rfl
  constructor
  · rintro contained ⟨blank, root, selected⟩
    have evaluated : policyPath configured (.ok packages) reqContext = .ok root :=
      policyPath_ok_iff.mpr (.inl ⟨read.trans blank, selected⟩)
    obtain ⟨_, named⟩ := contained.1 value present root evaluated
    exact ne_of_mem_defaultPolicyRoots (mem_of_selectPolicyRoot selected) _ named
  · intro guarded
    refine ⟨fun other found path evaluated => ?_, fun absent => (nomatch present.symm.trans absent)⟩
    cases present.symm.trans found
    rcases policyPath_ok_iff.mp evaluated with ⟨blank, selected⟩ | ⟨_, named, loaded⟩
    · exact absurd ⟨read.symm.trans blank, path, selected⟩ guarded
    · exact ⟨loaded, by rw [named, read]⟩

/-- The selection is contained exactly when the request does not bring a blank `doelbinding`
to an instance that has a default root. -/
theorem policyPath_contained_iff (configured : GoString) (packages : List GoString)
    (reqContext : Option Struct) :
    Contained configured packages reqContext ↔
      ¬(BlankSelection reqContext ∧
        ∃ root, selectPolicyRoot configured (defaultPolicyRoots packages) = .ok root) := by
  cases entry : doelbinding? reqContext with
  | none =>
      refine iff_of_true (contained_of_no_entry entry) ?_
      rintro ⟨⟨value, found, _⟩, _⟩
      rw [entry] at found
      cases found
  | some value =>
      rw [contained_iff_of_entry entry]
      simp only [BlankSelection, entry, Option.some.injEq, exists_eq_left']

/-- A number in the place of the name is answered by the default policy. -/
theorem numeric_doelbinding_not_contained :
    ¬Contained [] ["authz".toList, "doelbinding.laadpalen".toList]
      (some (Std.ExtTreeMap.empty.insert doelbindingKey (some (.number 7)))) := by
  intro contained
  have evaluated : policyPath [] (.ok ["authz".toList, "doelbinding.laadpalen".toList])
      (some (Std.ExtTreeMap.empty.insert doelbindingKey (some (.number 7)))) =
        .ok "authz".toList := by decide +kernel
  obtain ⟨_, named⟩ := contained.1 (some (.number 7)) (by simp [doelbinding?]) _ evaluated
  exact absurd named (by decide)

end Eamerald.Authorizer
