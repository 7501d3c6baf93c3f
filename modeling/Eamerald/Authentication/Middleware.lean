import Eamerald.Authorizer.Policies
import Eamerald.Foundation.Separators

/-! API-key authentication: loading the keys from the configuration file, the options of a
path, and the check of the `Authorization` header. -/

set_option autoImplicit false

namespace Eamerald.Authentication

open Authorizer

variable {scheme : GoString} {key : GoString} {keys : List GoString}

section Loading

variable (getenv : GoString → GoString)

def expandVar (name : GoString) : GoString := if name = [] then [] else getenv name

/-- Every shortest `${...}` on a line is replaced. The open one comes first, in reverse. -/
def substitute : Option GoString → GoString → GoString
  | none, [] => []
  | some pending, [] => '$' :: '{' :: pending.reverse
  | none, '$' :: '{' :: rest => substitute (some []) rest
  | none, char :: rest => char :: substitute none rest
  | some pending, '}' :: rest => expandVar getenv pending.reverse ++ substitute none rest
  | some pending, '\n' :: rest => '$' :: '{' :: pending.reverse ++ '\n' :: substitute none rest
  | some pending, char :: rest => substitute (some (char :: pending)) rest

/-- An undefined variable reads as the empty text. -/
def subEnvVars (text : GoString) : GoString :=
  substitute getenv none (text.map fun char => if char = '"' then '\'' else char)

end Loading

structure Options where
  enableAPIKey : Bool := false
  enableAnonymous : Bool := false
deriving DecidableEq, Repr

structure OptionOverrides where
  paths : List GoString
  override : Options
deriving DecidableEq, Repr

structure CallOptions where
  default : Options := {}
  overrides : List OptionOverrides := []
deriving DecidableEq, Repr

structure AuthnConfig where
  apiKeys : Std.ExtTreeMap GoString GoString := ∅
  options : CallOptions := {}
  keys : List GoString := []

inductive CommandMode where
  | unknown
  | run
  | build
deriving DecidableEq, Repr

structure Config where
  services : List GoString
  mode : CommandMode := .unknown
  instanceID : GoString := []
  bundles : Nat := 0
  auth : AuthnConfig

def AuthnConfig.transposeKeys (config : AuthnConfig) : AuthnConfig :=
  { config with apiKeys := config.keys.foldl (fun apiKeys key => apiKeys.insert key []) config.apiKeys }

section Validation

-- `toLower` is `strings.ToLower`
variable (toLower : GoString → GoString)

def forPath (options : CallOptions) (path : GoString) : Options :=
  match options.overrides.find? fun override =>
      override.paths.any fun start => start.isPrefixOf (toLower path) with
  | some override => override.override
  | none => options.default

def reflectionPaths : List GoString :=
  ["/grpc.reflection.v1alpha.ServerReflection/ServerReflectionInfo".toList,
    "/grpc.reflection.v1.ServerReflection.ServerReflectionInfo".toList]

def setDefaultCallsAuthz (options : CallOptions) : CallOptions :=
  let overrides := if options.overrides.length = 0
    then [⟨reflectionPaths, { enableAPIKey := false, enableAnonymous := true }⟩]
    else options.overrides
  { options with
    overrides := overrides.map fun override => { override with
      paths := override.paths.map fun path =>
        toLower (path.map fun char => if char = '|' then '.' else char) } }

def validation (config : Config) : Except Failure Config :=
  if "authorizer".toList ∈ config.services ∧ config.mode = .run ∧ config.instanceID = [] then
    .error (.plain [.text "opa.instance_id not set"])
  else if "authorizer".toList ∈ config.services ∧ 1 < config.bundles then
    .error (.plain [.text "opa.config.bundles - too many bundles"])
  else if config.services.length = 0 then .error (.plain [.text "no api services configured"])
  else
    let auth := { config.auth with
      options := setDefaultCallsAuthz toLower config.auth.options }.transposeKeys
    let default := if 0 < auth.apiKeys.size
      then { auth.options.default with enableAPIKey := true }
      else { auth.options.default with enableAnonymous := true }
    .ok { config with auth := { auth with options := { auth.options with default } } }

/-- The lower case of a character, or the ASCII letter that Unicode folds it with. -/
def foldRune (char : Char) : Char :=
  if char = 'ſ' then 's' else if char = 'K' then 'k' else char.toLower

/-- `strings.EqualFold` with an ASCII text. -/
def equalFold (first second : GoString) : Bool := first.map foldRune = second.map foldRune

def authenticationFailed (message : List Piece) : Failure := .aerr .authenticationFailed message

def parseAuthHeader (value expectedScheme : GoString) : Except Failure GoString :=
  let (scheme, header, ok) := cut ' ' value
  if ok = false then .error (authenticationFailed [.text "Bad authorization string"])
  else if equalFold scheme expectedScheme = false then .error (authenticationFailed
    [.text "Request unauthenticated with expected scheme, expected: ", .plain expectedScheme])
  else .ok header

/-- An absent header is the empty text. One that cannot be parsed is looked up as the empty key. -/
def authenticate (config : AuthnConfig) (path authHeader : GoString) : Except Failure Unit :=
  let options := forPath toLower config.options path
  if options.enableAnonymous then .ok ()
  else if config.apiKeys.size = 0 ∨ options.enableAPIKey = false then .ok ()
  else
    let basicAPIKey := (parseAuthHeader authHeader "basic".toList).toOption.getD []
    if basicAPIKey ∈ config.apiKeys then .ok () else .error (authenticationFailed [])

end Validation

def configuredKeys (config : Config) : List GoString :=
  config.auth.apiKeys.keys ++ config.auth.keys

def Presents (keys : List GoString) (authHeader : GoString) : Prop :=
  ∃ scheme key, authHeader = scheme ++ ' ' :: key ∧ equalFold scheme "basic".toList ∧ key ∈ keys

def BasicHeader (authHeader : GoString) : Prop :=
  ∃ scheme key, authHeader = scheme ++ ' ' :: key ∧ equalFold scheme "basic".toList

section Keys

theorem mem_foldl_insert {apiKeys : Std.ExtTreeMap GoString GoString} :
    key ∈ keys.foldl (fun apiKeys key => apiKeys.insert key []) apiKeys ↔ key ∈ apiKeys ∨ key ∈ keys := by
  induction keys generalizing apiKeys with
  | nil => simp
  | cons head keys ih =>
      simp only [List.foldl_cons, ih, Std.ExtTreeMap.mem_insert, Std.LawfulEqCmp.compare_eq_iff_eq,
        List.mem_cons]
      rw [eq_comm (a := head)]
      tauto

theorem mem_transposeKeys {config : AuthnConfig} :
    key ∈ config.transposeKeys.apiKeys ↔ key ∈ config.apiKeys ∨ key ∈ config.keys :=
  mem_foldl_insert

variable {toLower : GoString → GoString} {config valid : Config}

theorem mem_apiKeys_of_validation (accepted : validation toLower config = .ok valid)
    (key : GoString) : key ∈ valid.auth.apiKeys ↔ key ∈ configuredKeys config := by
  simp only [validation] at accepted
  split at accepted
  case isTrue => cases accepted
  case isFalse =>
    split at accepted
    case isTrue => cases accepted
    case isFalse =>
      split at accepted
      case isTrue => cases accepted
      case isFalse =>
        cases accepted
        simp only [mem_transposeKeys, configuredKeys, List.mem_append, Std.ExtTreeMap.mem_keys]

end Keys

section Header

theorem no_space_of_basic (basic : equalFold scheme "basic".toList) : ' ' ∉ scheme := by
  intro present
  have folded : foldRune ' ' ∈ scheme.map foldRune := List.mem_map_of_mem present
  rw [of_decide_eq_true basic] at folded
  exact absurd folded (by decide)

theorem parseAuthHeader_of_basic (key : GoString) (basic : equalFold scheme "basic".toList) :
    parseAuthHeader (scheme ++ ' ' :: key) "basic".toList = .ok key := by
  simp only [parseAuthHeader, cut_append key (no_space_of_basic basic), basic, Bool.true_eq_false,
    if_false]

theorem parseAuthHeader_of_not_basic {authHeader : GoString} (other : ¬BasicHeader authHeader) :
    (parseAuthHeader authHeader "basic".toList).toOption = none := by
  simp only [parseAuthHeader]
  by_cases present : ' ' ∈ authHeader
  · obtain ⟨scheme, key, rfl, free⟩ := List.eq_append_cons_of_mem present
    have foreign : equalFold scheme "basic".toList = false := by
      by_contra basic
      exact other ⟨scheme, key, rfl, Bool.eq_true_of_not_eq_false basic⟩
    simp only [cut_append key free, foreign, Bool.true_eq_false, if_false, if_true]
    rfl
  · simp only [cut_of_not_mem present, if_true]
    rfl

end Header

section Authenticate

variable {toLower : GoString → GoString} {config : AuthnConfig} {path : GoString}

theorem authenticate_eq_ok_iff (some : config.apiKeys.size ≠ 0)
    (named : (forPath toLower config.options path).enableAnonymous = false)
    (keyed : (forPath toLower config.options path).enableAPIKey = true) (authHeader : GoString) :
    authenticate toLower config path authHeader = .ok () ↔
      (parseAuthHeader authHeader "basic".toList).toOption.getD [] ∈ config.apiKeys := by
  simp only [authenticate, named, keyed, some, Bool.false_eq_true, Bool.true_eq_false, or_self,
    if_false]
  split
  case isTrue known => exact iff_of_true rfl known
  case isFalse unknown => exact iff_of_false (nomatch ·) unknown

end Authenticate

theorem presents_iff_of_basic
    (basic : equalFold scheme "basic".toList) : Presents keys (scheme ++ ' ' :: key) ↔ key ∈ keys := by
  constructor
  · rintro ⟨other, presented, same, also, known⟩
    obtain ⟨_, rfl⟩ := (Foundation.append_cons_inj_left (no_space_of_basic basic)
      (no_space_of_basic also)).mp same
    exact known
  · intro known
    exact ⟨scheme, key, rfl, basic, known⟩

theorem BasicHeader.of_presents {authHeader : GoString}
    (presents : Presents keys authHeader) : BasicHeader authHeader := by
  obtain ⟨scheme, key, whole, basic, _⟩ := presents
  exact ⟨scheme, key, whole, basic⟩

/-- With a key configured, and on a path that asks for one, a call is let through for the right
header only, exactly when the empty text is no key or the header has the scheme. -/
theorem authenticate_exact_iff (toLower : GoString → GoString) (config valid : Config)
    (accepted : validation toLower config = .ok valid) (some : configuredKeys config ≠ [])
    (path : GoString)
    (named : (forPath toLower valid.auth.options path).enableAnonymous = false)
    (keyed : (forPath toLower valid.auth.options path).enableAPIKey = true)
    (authHeader : GoString) :
    (authenticate toLower valid.auth path authHeader = .ok () ↔
        Presents (configuredKeys config) authHeader) ↔
      ([] ∉ configuredKeys config ∨ BasicHeader authHeader) := by
  have table := mem_apiKeys_of_validation accepted
  have filled : valid.auth.apiKeys.size ≠ 0 := by
    obtain ⟨key, known⟩ := List.exists_mem_of_ne_nil _ some
    intro empty
    have absent := Std.ExtTreeMap.eq_empty_iff_size_eq_zero.mpr empty
    exact absurd ((table key).mpr known) (by simp [absent])
  rw [authenticate_eq_ok_iff filled named keyed, table]
  by_cases basic : BasicHeader authHeader
  · obtain ⟨scheme, key, rfl, folds⟩ := basic
    refine iff_of_true ?_ (.inr ⟨scheme, key, rfl, folds⟩)
    rw [parseAuthHeader_of_basic key folds, presents_iff_of_basic folds]
    rfl
  · -- a header that cannot be parsed is looked up as the empty key
    rw [parseAuthHeader_of_not_basic basic]
    have unmatched : ¬Presents (configuredKeys config) authHeader := mt BasicHeader.of_presents basic
    simp only [Option.getD_none, unmatched, iff_false, basic, or_false]

section Examples

def keyConfig (key : GoString) : Config where
  services := ["reader".toList]
  auth := { keys := [key] }

/-- The one key opens a path to a caller that has it. -/
theorem basic_header_opens :
    ∃ valid, validation id (keyConfig "secret".toList) = .ok valid ∧
      (forPath id valid.auth.options "/reader".toList).enableAnonymous = false ∧
      (forPath id valid.auth.options "/reader".toList).enableAPIKey = true ∧
      (authenticate id valid.auth "/reader".toList "Basic secret".toList = .ok () ↔
        Presents (configuredKeys (keyConfig "secret".toList)) "Basic secret".toList) := by
  have keys : configuredKeys (keyConfig "secret".toList) = ["secret".toList] := rfl
  refine ⟨_, rfl, rfl, rfl, ?_⟩
  refine (authenticate_exact_iff id (keyConfig "secret".toList) _ rfl ?_ _ rfl rfl _).mpr (.inl ?_)
  · rw [keys]
    exact List.cons_ne_nil _ _
  · rw [keys]
    decide

/-- A key from a variable that is not defined opens every path to everyone. -/
theorem undefined_variable_opens :
    ∃ valid, validation id (keyConfig (subEnvVars (fun _ => []) "$\x7bAPI_KEY\x7d".toList)) =
        .ok valid ∧
      configuredKeys (keyConfig (subEnvVars (fun _ => []) "$\x7bAPI_KEY\x7d".toList)) ≠ [] ∧
      (forPath id valid.auth.options "/reader".toList).enableAnonymous = false ∧
      (forPath id valid.auth.options "/reader".toList).enableAPIKey = true ∧
      authenticate id valid.auth "/reader".toList [] = .ok () ∧
      ¬Presents (configuredKeys (keyConfig (subEnvVars (fun _ => []) "$\x7bAPI_KEY\x7d".toList)))
        [] := by
  refine ⟨_, rfl, ?_, rfl, rfl, rfl, ?_⟩
  · exact List.append_ne_nil_of_right_ne_nil _ (List.cons_ne_nil _ _)
  · rintro ⟨scheme, key, whole, _⟩
    simp at whole

end Examples

end Eamerald.Authentication
