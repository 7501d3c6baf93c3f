import Eamerald.Api.Messages
import Eamerald.Edge.Scheduler
import Eamerald.Foundation.Program

/-! The configuration of the edge plugin: what its factory makes of a configuration, what
`Reconfigure` does with later ones, and the settings that the tasks take from them. -/

set_option autoImplicit false

namespace Eamerald.Edge

open Foundation

section Model

abbrev Duration := Int64

def second : Duration := 1000000000

/-- The timeout is in seconds and the interval in minutes. -/
structure Config where
  enabled : Bool := false
  addr : GoString := []
  apiKey : GoString := []
  timeout : Int64 := 0
  syncInterval : Int64 := 0
  insecure : Bool := false
  connectionTimeout : Duration := 0
  clientCertPath : GoString := []
  clientKeyPath : GoString := []
  caCertPath : GoString := []
  noTLS : Bool := false
  noProxy : Bool := false
  headers : Std.ExtTreeMap GoString GoString := ∅

/-- The readers of configurations. The connection timeout has no name in the text, so they leave it
as it was. -/
structure ConfigReader where
  readConfig : GoString → Except GoString Unit
  unmarshalExact : GoString → Config → Except GoString Config
  unmarshal : GoString → Config → Except GoString Config
  exact_keeps : ∀ {text config parsed}, unmarshalExact text config = .ok parsed →
    parsed.connectionTimeout = config.connectionTimeout
  keeps : ∀ {text config parsed}, unmarshal text config = .ok parsed →
    parsed.connectionTimeout = config.connectionTimeout

def wrapParseError (error : GoString) : GoString := "error parsing edge directory config: ".toList ++ error

def ConfigReader.validate (reader : ConfigReader) (text : GoString) : Except GoString Config := do
  (reader.readConfig text).mapError wrapParseError
  let parsed ← (reader.unmarshalExact text {}).mapError wrapParseError
  reader.unmarshal text parsed

/-- Only contexts up to the present one are cancelled, and that one not while enabled. -/
structure Plugin.Current (schedule : Plugin) : Prop where
  older : ∀ context ∈ schedule.cancelled, context ≤ schedule.context
  live : schedule.enabled = true → schedule.context ∉ schedule.cancelled

structure EdgePlugin where
  config : Config
  schedule : Plugin
  agrees : schedule.enabled = config.enabled
  current : schedule.Current

def newEdgePlugin (config : Config) : EdgePlugin where
  config := { config with connectionTimeout := config.timeout * second }
  schedule := { enabled := config.enabled }
  agrees := rfl
  current := ⟨by simp, by simp⟩

def switch (schedule : Plugin) (enabled : Bool) : Plugin :=
  if schedule.enabled = enabled then schedule
  else ((if enabled then schedule.enable else schedule.disable).getD schedule)

theorem enabled_switch (schedule : Plugin) (enabled : Bool) : (switch schedule enabled).enabled = enabled := by
  unfold switch Plugin.enable Plugin.disable
  cases before : schedule.enabled <;> cases enabled <;> simp [before]

theorem Plugin.Current.switch {schedule : Plugin} (current : schedule.Current) (enabled : Bool) :
    (switch schedule enabled).Current := by
  unfold Edge.switch
  split
  · exact current
  · rename_i changes
    cases enabled with
    | false =>
        have before : schedule.enabled = true := by simpa using changes
        simp only [Bool.false_eq_true, if_false, Plugin.disable, before, if_true, Option.getD_some]
        exact ⟨List.forall_mem_cons.mpr ⟨le_rfl, current.older⟩, by simp⟩
    | true =>
        have before : schedule.enabled = false := by simpa using changes
        simp only [if_true, Plugin.enable, before, Bool.false_eq_true, if_false, Option.getD_some]
        refine ⟨fun context old => (current.older context old).trans (Nat.le_succ _), fun _ old => ?_⟩
        exact absurd (current.older _ old) (Nat.not_succ_le_self _)

def EdgePlugin.reconfigure (plugin : EdgePlugin) (config : Config) : EdgePlugin where
  config := config
  schedule := switch plugin.schedule config.enabled
  agrees := enabled_switch ..
  current := plugin.current.switch config.enabled

/-- A plugin that the factory made: a disabled one ignores all later configurations. -/
inductive OpaPlugin where
  | noop
  | edge (plugin : EdgePlugin)

def PluginFactory.new (config : Config) : OpaPlugin :=
  if config.enabled then .edge (newEdgePlugin config) else .noop

def OpaPlugin.reconfigure (plugin : OpaPlugin) (config : Config) : OpaPlugin :=
  match plugin with
  | .noop => .noop
  | .edge plugin => .edge (plugin.reconfigure config)

structure ClientConfig where
  address : GoString
  apiKey : GoString
  clientCertPath : GoString
  clientKeyPath : GoString
  caCertPath : GoString
  insecure : Bool
  noTLS : Bool
  noProxy : Bool
  headers : Std.ExtTreeMap GoString GoString

/-- A connection is left when its state changes, at the timeout, or when the context is cancelled. -/
structure Grpc (χ : Type) where
  connect : ClientConfig → Except GoString χ
  waitForStateChange : χ → (cancelled : Bool) → Duration → Bool

namespace EdgePlugin

variable (plugin : EdgePlugin)

def clientConfig : ClientConfig where
  address := plugin.config.addr
  apiKey := plugin.config.apiKey
  clientCertPath := plugin.config.clientCertPath
  clientKeyPath := plugin.config.clientKeyPath
  caCertPath := plugin.config.caCertPath
  insecure := plugin.config.insecure
  noTLS := plugin.config.noTLS
  noProxy := plugin.config.noProxy
  headers := plugin.config.headers

def remoteDirectoryClient {χ : Type} (grpc : Grpc χ) : Except GoString χ := do
  let conn ← grpc.connect plugin.clientConfig
  let cancelled := decide (plugin.schedule.context ∈ plugin.schedule.cancelled)
  if grpc.waitForStateChange conn cancelled plugin.config.connectionTimeout then .ok conn
  else .error ("failed to connect to remote directory ".toList ++ plugin.config.addr)

def secsInMin : Int64 := 60

def calcInterval : Duration :=
  let waitInSec := plugin.config.syncInterval * secsInMin / Int64.ofNat cycles
  waitInSec * second

end EdgePlugin

/-- `Ticker.Reset` panics if the interval is not positive. -/
def tickerReset (wait : Duration) : Except GoString Unit :=
  if wait ≤ 0 then .error "non-positive interval for Ticker.Reset".toList else .ok ()

/-- What the tasks of a plugin take from its configuration. -/
structure TaskSettings where
  client : ClientConfig
  connectionTimeout : Duration
  wait : Duration

def EdgePlugin.settings (plugin : EdgePlugin) : TaskSettings :=
  ⟨plugin.clientConfig, plugin.config.connectionTimeout, plugin.calcInterval⟩

/-- A plugin that was disabled at first has no tasks. -/
def OpaPlugin.settings : OpaPlugin → Option TaskSettings
  | .noop => none
  | .edge plugin => some plugin.settings

def OpaPlugin.reconfigureAll (plugin : OpaPlugin) (history : List Config) : OpaPlugin :=
  history.foldl OpaPlugin.reconfigure plugin

end Model

section Histories

theorem reconfigureAll_noop (history : List Config) : OpaPlugin.noop.reconfigureAll history = .noop := by
  induction history with
  | nil => rfl
  | cons config history ih => exact ih

theorem reconfigureAll_edge (plugin : EdgePlugin) (history : List Config) :
    ∃ reached, (OpaPlugin.edge plugin).reconfigureAll history = .edge reached ∧
      reached.config = history.getLastD plugin.config := by
  induction history generalizing plugin with
  | nil => exact ⟨plugin, rfl, rfl⟩
  | cons config history ih =>
      obtain ⟨reached, ran, ends⟩ := ih (plugin.reconfigure config)
      exact ⟨reached, ran, ends.trans (List.getLastD_cons ..).symm⟩

theorem remoteDirectoryClient_of_settings {χ : Type} (grpc : Grpc χ) {first second : EdgePlugin}
    (enabled : first.config.enabled = true) (enabledToo : second.config.enabled = true)
    (same : first.settings = second.settings) :
    first.remoteDirectoryClient grpc = second.remoteDirectoryClient grpc := by
  have live := first.current.live (first.agrees.trans enabled)
  have liveToo := second.current.live (second.agrees.trans enabledToo)
  obtain ⟨client, timeout, _⟩ := TaskSettings.mk.inj same
  have address : first.config.addr = second.config.addr := congrArg ClientConfig.address client
  unfold EdgePlugin.remoteDirectoryClient
  rw [client, timeout, address, decide_eq_false live, decide_eq_false liveToo]

end Histories

section Intervals

theorem second_toInt : second.toInt = 1000000000 := by decide

theorem calcInterval_toInt (plugin : EdgePlugin) : plugin.calcInterval.toInt =
      ((((plugin.config.syncInterval.toInt * 60).bmod (2 ^ 64)).tdiv 4).bmod (2 ^ 64) *
        1000000000).bmod (2 ^ 64) := by
  unfold EdgePlugin.calcInterval
  rw [Int64.toInt_mul, Int64.toInt_div, Int64.toInt_mul, second_toInt]
  rfl

/-- The wait is a quarter of the configured minutes, and the ticker accepts it. -/
structure ValidWait (syncInterval : Int64) (wait : Duration) : Prop where
  positive : 0 < wait.toInt
  quarter : 4 * wait.toInt = syncInterval.toInt * (60 * 1000000000)
  rearms : tickerReset wait = .ok ()

theorem tickerReset_of_pos {wait : Duration} (positive : 0 < wait.toInt) : tickerReset wait = .ok () := by
  have above : ¬ wait ≤ 0 := by
    rw [Int64.le_iff_toInt_le]
    exact not_le.mpr positive
  exact if_neg above

/-- The longest interval for which the arithmetic does not wrap, in minutes. -/
def longestInterval : Int := 614891469

theorem calcInterval_valid_iff (plugin : EdgePlugin) :
    ValidWait plugin.config.syncInterval plugin.calcInterval ↔
      0 < plugin.config.syncInterval.toInt ∧ plugin.config.syncInterval.toInt ≤ longestInterval := by
  unfold longestInterval
  constructor
  · intro valid
    have positive := valid.positive
    have quarter := valid.quarter
    have bounded := Int64.toInt_lt plugin.calcInterval
    constructor <;> omega
  · rintro ⟨positive, bounded⟩
    have exactly : plugin.calcInterval.toInt = plugin.config.syncInterval.toInt * 15 * 1000000000 := by
      have minutes : (plugin.config.syncInterval.toInt * 60).bmod (2 ^ 64) =
          plugin.config.syncInterval.toInt * 15 * 4 := by
        rw [Int.bmod_eq_of_le (by omega) (by omega)]
        omega
      have seconds : (plugin.config.syncInterval.toInt * 15).bmod (2 ^ 64) =
          plugin.config.syncInterval.toInt * 15 := Int.bmod_eq_of_le (by omega) (by omega)
      rw [calcInterval_toInt, minutes, Int.mul_tdiv_cancel _ (by decide), seconds]
      exact Int.bmod_eq_of_le (by omega) (by omega)
    refine ⟨by omega, by omega, tickerReset_of_pos (by omega)⟩

theorem wraps_to_zero_iff (seconds : Int) :
    ((2 ^ 64 : Nat) : Int) ∣ seconds * 1000000000 ↔ 2 ^ 55 ∣ seconds := by
  have coprime : IsCoprime ((2 : Int) ^ 55) 1953125 := by
    rw [Int.isCoprime_iff_gcd_eq_one]
    decide
  calc ((2 ^ 64 : Nat) : Int) ∣ seconds * 1000000000
      ↔ (2 : Int) ^ 55 * 512 ∣ seconds * 1953125 * 512 := by
        rw [mul_assoc]
        norm_num
    _ ↔ (2 : Int) ^ 55 ∣ seconds * 1953125 := mul_dvd_mul_iff_right (by norm_num)
    _ ↔ (2 : Int) ^ 55 ∣ seconds := ⟨coprime.dvd_of_dvd_mul_right, fun divides => divides.mul_right _⟩

theorem timeout_eq_zero_iff (timeout : Int64) : 0 = timeout * second ↔ 2 ^ 55 ∣ timeout.toInt := by
  rw [eq_comm, ← Int64.toInt_inj, Int64.toInt_mul, second_toInt, Int64.toInt_zero,
    ← Int.dvd_iff_bmod_eq_zero, wraps_to_zero_iff]

end Intervals

section Equivalence

variable {first : Config}

theorem connectionTimeout_of_validate {reader : ConfigReader} {text : GoString} {config : Config}
    (accepted : reader.validate text = .ok config) : config.connectionTimeout = 0 := by
  obtain ⟨_, _, parsing⟩ := except_bind_eq_ok.mp accepted
  obtain ⟨first, parsed, accepted⟩ := except_bind_eq_ok.mp parsing
  exact (reader.keeps accepted).trans (reader.exact_keeps (except_mapError_eq_ok.mp parsed))

section Same

variable {reached : EdgePlugin} {config : Config} {connectionTimeout : Duration}
  (same : reached.config = { config with connectionTimeout })

include same

theorem clientConfig_eq_new : reached.clientConfig = (newEdgePlugin config).clientConfig := by
  unfold EdgePlugin.clientConfig
  rw [same]
  rfl

theorem calcInterval_eq_new : reached.calcInterval = (newEdgePlugin config).calcInterval := by
  unfold EdgePlugin.calcInterval
  rw [same]
  rfl

theorem settings_eq_new_iff :
    reached.settings = (newEdgePlugin config).settings ↔ connectionTimeout = config.timeout * second := by
  unfold EdgePlugin.settings
  rw [clientConfig_eq_new same, calcInterval_eq_new same, same, TaskSettings.mk.injEq]
  simp [newEdgePlugin]

theorem enabled_of_same : reached.config.enabled = config.enabled := by rw [same]

theorem connects_like_new (enabled : config.enabled = true)
    (settings : reached.settings = (newEdgePlugin config).settings) {χ : Type} (grpc : Grpc χ) :
    reached.remoteDirectoryClient grpc = (newEdgePlugin config).remoteDirectoryClient grpc := by
  have created : (newEdgePlugin config).config.enabled = config.enabled := enabled_of_same rfl
  exact remoteDirectoryClient_of_settings grpc ((enabled_of_same same).trans enabled)
    (created.trans enabled) settings

theorem validWait_iff : ValidWait config.syncInterval reached.calcInterval ↔
      0 < config.syncInterval.toInt ∧ config.syncInterval.toInt ≤ longestInterval := by
  have interval : config.syncInterval = reached.config.syncInterval := by rw [same]
  rw [interval]
  exact calcInterval_valid_iff reached

end Same

/-- An enabled plugin has the last configuration, with the timeout mapped only if it is the first. -/
theorem config_reached (history : List Config) (enabled : first.enabled = true) :
    ∃ reached, (PluginFactory.new first).reconfigureAll history = .edge reached ∧
      reached.config = { history.getLastD first with
        connectionTimeout := if history = [] then (history.getLastD first).timeout * second
          else (history.getLastD first).connectionTimeout } := by
  rw [PluginFactory.new, if_pos enabled]
  cases history with
  | nil => exact ⟨newEdgePlugin first, rfl, rfl⟩
  | cons config history =>
      obtain ⟨reached, ran, ends⟩ := reconfigureAll_edge (newEdgePlugin first) (config :: history)
      refine ⟨reached, ran, ?_⟩
      rw [ends, List.getLastD_cons, List.getLastD_cons, if_neg (List.cons_ne_nil _ _)]

theorem new_reconfigured_noop (history : List Config) (disabled : first.enabled = false) :
    (PluginFactory.new first).reconfigureAll history = .noop := by
  rw [PluginFactory.new, disabled]
  exact reconfigureAll_noop history

theorem config_of_reached {history : List Config} {reached : EdgePlugin}
    (ran : (PluginFactory.new first).reconfigureAll history = .edge reached) :
    ∃ connectionTimeout, reached.config = { history.getLastD first with connectionTimeout } := by
  cases enabled : first.enabled with
  | false => cases (new_reconfigured_noop history enabled).symm.trans ran
  | true =>
      obtain ⟨other, same, ends⟩ := config_reached history enabled
      cases ran.symm.trans same
      exact ⟨_, ends⟩

theorem settings_reached_iff (first : Config) (history : List Config) {last : Config}
    (ends : history.getLastD first = last) (enabled : last.enabled = true) :
    ((PluginFactory.new first).reconfigureAll history).settings = (PluginFactory.new last).settings ↔
      first.enabled = true ∧ (history = [] ∨ last.connectionTimeout = last.timeout * second) := by
  have created : PluginFactory.new last = .edge (newEdgePlugin last) := if_pos enabled
  cases enabledFirst : first.enabled with
  | false => simp [new_reconfigured_noop history enabledFirst, created, OpaPlugin.settings]
  | true =>
      obtain ⟨reached, ran, same⟩ := config_reached history enabledFirst
      rw [ends] at same
      simp only [ran, created, OpaPlugin.settings, Option.some.injEq, settings_eq_new_iff same, true_and]
      split <;> simp [*]

/-- After a history of configurations, the tasks use the address, the credentials and the wait of the
last one. They use its timeout exactly if there was no change at all, or if it comes with its
connection timeout, which no accepted configuration does unless that is zero. The wait is a quarter
of the interval exactly if that is positive and not too long. -/
theorem reconfigured_like_new_iff (first : Config) (history : List Config) {last : Config}
    (ends : history.getLastD first = last) (enabled : last.enabled = true) :
    let plugin := (PluginFactory.new first).reconfigureAll history
    let anew := newEdgePlugin last
    (plugin.settings = (PluginFactory.new last).settings ↔
      first.enabled = true ∧
        (history = [] ∨ last.connectionTimeout = last.timeout * second)) ∧
    (∀ (reader : ConfigReader) (text : GoString), reader.validate text = .ok last →
      (last.connectionTimeout = last.timeout * second ↔ 2 ^ 55 ∣ last.timeout.toInt)) ∧
    (∀ reached, plugin = .edge reached →
      reached.clientConfig = anew.clientConfig ∧ reached.calcInterval = anew.calcInterval ∧
        (reached.settings = anew.settings →
          ∀ (χ : Type) (grpc : Grpc χ),
            reached.remoteDirectoryClient grpc = anew.remoteDirectoryClient grpc) ∧
        (ValidWait last.syncInterval reached.calcInterval ↔
          0 < last.syncInterval.toInt ∧ last.syncInterval.toInt ≤ longestInterval)) := by
  intro plugin anew
  refine ⟨settings_reached_iff first history ends enabled, fun reader text accepted => ?_,
    fun reached is => ?_⟩
  · rw [connectionTimeout_of_validate accepted]
    exact timeout_eq_zero_iff _
  · obtain ⟨_, same⟩ := config_of_reached is
    rw [ends] at same
    exact ⟨clientConfig_eq_new same, calcInterval_eq_new same,
      fun settings _ grpc => connects_like_new same enabled settings grpc, validWait_iff same⟩

def reading (config : Config) : ConfigReader where
  readConfig _ := .ok ()
  unmarshalExact _ before := .ok before
  unmarshal _ before := .ok { config with connectionTimeout := before.connectionTimeout }
  exact_keeps parsed := by
    cases parsed
    rfl
  keeps parsed := by
    cases parsed
    rfl

def hub (timeout syncInterval : Int64) : Config :=
  { enabled := true, addr := "hub".toList, timeout, syncInterval }

theorem hub_enabled_again :
    ((PluginFactory.new (hub 5 1)).reconfigureAll [{}, hub 0 60]).settings =
        (PluginFactory.new (hub 0 60)).settings ∧
      ∃ reached, (PluginFactory.new (hub 5 1)).reconfigureAll [{}, hub 0 60] = .edge reached ∧
        ValidWait 60 reached.calcInterval := by
  have ends : [{}, hub 0 60].getLastD (hub 5 1) = hub 0 60 := rfl
  have enabled : (hub 5 1).enabled = true := rfl
  obtain ⟨settings, accepted, waits⟩ := reconfigured_like_new_iff (hub 5 1) [{}, hub 0 60] ends rfl
  have zero := (accepted (reading (hub 0 60)) [] rfl).mpr (by decide)
  obtain ⟨reached, ran, _⟩ := config_reached [{}, hub 0 60] enabled
  exact ⟨settings.mpr ⟨enabled, .inr zero⟩, reached, ran, (waits reached ran).2.2.2.mpr (by decide)⟩

/-- The same configuration once more leaves no time to connect, and none takes effect on a plugin that
was disabled at first. Without an interval, or with one that is too long, the ticker panics. -/
theorem hub_reconfigured_differently :
    (reading (hub 5 1)).validate [] = .ok (hub 5 1) ∧
      ((PluginFactory.new (hub 5 1)).reconfigureAll [hub 5 1]).settings.map
          TaskSettings.connectionTimeout = some 0 ∧
      (PluginFactory.new (hub 5 1)).settings.map TaskSettings.connectionTimeout = some 5000000000 ∧
      ((PluginFactory.new {}).reconfigureAll [hub 5 1]).settings.map
          TaskSettings.connectionTimeout = none ∧
      (tickerReset (newEdgePlugin (hub 5 0)).calcInterval).toOption = none ∧
      (tickerReset (newEdgePlugin (hub 5 614891470)).calcInterval).toOption = none := by
  exact ⟨rfl, by decide⟩

end Equivalence

end Eamerald.Edge
