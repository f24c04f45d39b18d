import OverlayHost.Daemon.Run
import OverlayHost.Proofs.Config.Validation

/-!
# What a start relies on

A start of either mode takes options from its configuration as given. After the checks they are: no start of a configuration
that passes them ends with a failure that comes of the configuration (`startAdapter_avoids`, `startAgent_avoids`).
-/

set_option autoImplicit false

namespace OverlayHost.Daemon

variable {σ α β : Type} {excluded : Failure → Prop} {host : Host (StateM σ)} {config : Config}

/-- Whatever its host answers, a start does not end with a failure of a kind that is excluded. -/
def Avoids (excluded : Failure → Prop) (start : ExceptT Failure (StateM σ) α) : Prop :=
  ∀ state failure, (start.run.run state).1 = .error failure → ¬excluded failure

theorem avoids_pure (value : α) : Avoids excluded (pure value : ExceptT Failure (StateM σ) α) := by
  intro state failure h
  cases h

theorem avoids_throw {failure : Failure} (h : ¬excluded failure) :
    Avoids excluded (throw failure : ExceptT Failure (StateM σ) α) := by
  intro state failure' h'
  cases h'
  exact h

theorem avoids_lift (action : StateM σ α) : Avoids excluded (liftM action : ExceptT Failure (StateM σ) α) := by
  intro state failure h
  cases h

theorem avoids_mk_pure {result : Except Failure α} (h : ∀ failure, result = .error failure → ¬excluded failure) :
    Avoids excluded (ExceptT.mk (pure result) : ExceptT Failure (StateM σ) α) := by
  intro state failure h'
  exact h failure h'

theorem avoids_bind {start : ExceptT Failure (StateM σ) α} {next : α → ExceptT Failure (StateM σ) β}
    (hstart : Avoids excluded start) (hnext : ∀ value, Avoids excluded (next value)) :
    Avoids excluded (start >>= next) := by
  intro state failure hfailed
  have hbind : ((start >>= next).run.run state) =
      match (start.run.run state) with
      | (.ok value, after) => (next value).run.run after
      | (.error cause, after) => (.error cause, after) := by
    rw [ExceptT.run_bind, StateT.run_bind]
    rcases start.run.run state with ⟨cause | value, after⟩ <;> rfl
  rw [hbind] at hfailed
  split at hfailed
  next value after hok => exact hnext value after failure hfailed
  next cause after herror =>
    cases hfailed
    exact hstart state failure (by rw [herror])

/-- A failure that comes of the configuration alone. -/
def Failure.IsOfConfig : Failure → Prop
  | .config _ | .requiredKey _ => True
  | _ => False

theorem avoids_mapError {ε : Type} {result : Except ε α} {wrap : ε → Failure} (hwrap : ∀ cause, ¬excluded (wrap cause)) :
    Avoids excluded (ExceptT.mk (pure (result.mapError wrap)) : ExceptT Failure (StateM σ) α) := by
  refine avoids_mk_pure fun failure hfailure => ?_
  cases result with
  | ok value => cases hfailure
  | error cause =>
    cases hfailure
    exact hwrap cause

theorem loadMaterial_avoids (host : Host (StateM σ)) (client authorities certificate key : String) :
    Avoids Failure.IsOfConfig (loadMaterial host client authorities certificate key) := by
  unfold loadMaterial
  refine avoids_bind (avoids_lift _) fun result => ?_
  cases result with
  | ok material => exact avoids_pure material
  | error cause => exact avoids_throw id

theorem required_bind {path : Option String} {given key : String} (hpath : path = some given)
    (next : String → ExceptT Failure (StateM σ) α) :
    (ExceptT.mk (pure (required path key)) >>= next) = next given := by
  subst hpath
  rfl

theorem startDiscovery_avoids (host : Host (StateM σ)) (h : config.Sufficient) :
    Avoids Failure.IsOfConfig (startDiscovery host config) := by
  obtain ⟨authorities, certificate, key, hauthorities, hcertificate, hkey⟩ := h.discovery
  unfold startDiscovery
  rw [required_bind hauthorities, required_bind hcertificate, required_bind hkey]
  refine avoids_bind (loadMaterial_avoids host _ _ _ _) fun tls => ?_
  exact avoids_mapError fun cause => id

theorem startControlPlane_avoids (host : Host (StateM σ)) (h : config.Sufficient) :
    Avoids Failure.IsOfConfig (startControlPlane host config) := by
  unfold startControlPlane
  cases hcontrol : config.hasControlPlane with
  | false => exact avoids_pure none
  | true =>
    obtain ⟨authorities, certificate, key, hauthorities, hcertificate, hkey⟩ := h.controlPlane hcontrol
    rw [if_neg (by simp), required_bind hauthorities, required_bind hcertificate, required_bind hkey]
    refine avoids_bind (loadMaterial_avoids host _ _ _ _) fun tls => ?_
    dsimp only
    cases ControlPlane.Client.connect _ _ with
    | ok client => exact avoids_pure (some client)
    | error cause => exact avoids_throw id

theorem connectMetrics_avoids (sockets : Net.Sockets) :
    Avoids (σ := σ) Failure.IsOfConfig (ExceptT.mk (pure (connectMetrics sockets config))) := by
  unfold connectMetrics
  cases config.metricsAddress with
  | none => exact avoids_pure none
  | some address => exact avoids_mapError fun cause => id

theorem listen_avoids (sockets : Net.Sockets) (address : String) :
    Avoids (σ := σ) Failure.IsOfConfig (ExceptT.mk (pure (listen sockets address))) :=
  avoids_mapError fun _ => id

/-- The policy agent takes nothing from its configuration that may be missing. -/
theorem startAgent_avoids (host : Host (StateM σ)) (config : Config) :
    Avoids Failure.IsOfConfig (startAgent host config) := by
  unfold startAgent
  refine avoids_bind (connectMetrics_avoids host.sockets) fun metrics => ?_
  refine avoids_bind (listen_avoids host.sockets _) fun address => ?_
  exact avoids_pure _

theorem startAdapter_avoids (host : Host (StateM σ)) (hadapter : config.validateDnsAdapter = .ok ())
    (h : config.Sufficient) : Avoids Failure.IsOfConfig (startAdapter host config) := by
  obtain ⟨network, -, hnetwork⟩ := h.network
  unfold startAdapter
  rw [hadapter, hnetwork]
  refine avoids_bind (avoids_pure ()) fun _ => ?_
  refine avoids_bind (connectMetrics_avoids host.sockets) fun metrics => ?_
  refine avoids_bind (startDiscovery_avoids host h) fun discovery => ?_
  refine avoids_bind (avoids_pure network.truncate) fun network => ?_
  refine avoids_bind (startControlPlane_avoids host h) fun controlPlane => ?_
  refine avoids_bind (listen_avoids host.sockets _) fun address => ?_
  exact avoids_pure _

/-- The policy agent serves with the interval and the planners of its configuration. -/
theorem startAgent_eq_ok {ready : AgentReady} {state : σ}
    (h : ((startAgent host config).run.run state).1 = .ok ready) :
    ready.interval = .ofMillis config.pollIntervalMillis ∧ ready.planners = config.planners := by
  unfold startAgent at h
  cases hmetrics : connectMetrics host.sockets config <;>
    cases haddress : listen host.sockets config.debugServerAddress <;>
      rw [hmetrics, haddress] at h <;> cases h
  exact ⟨rfl, rfl⟩

/-! ## The checks and the start -/

/-- What passes both checks has all that a start relies on, and each check answers its first fault. -/
theorem checks_suffice_and_find (config : Config) :
    (config.validate = .ok () → config.validateDnsAdapter = .ok () →
      config.Sufficient ∧ ∀ (σ : Type) (host : Host (StateM σ)),
        Avoids Failure.IsOfConfig (startAdapter host config) ∧
        Avoids Failure.IsOfConfig (startAgent host config) ∧
        ∀ state ready, ((startAgent host config).run.run state).1 = .ok ready →
          Duration.ofMillis 1 ≤ ready.interval ∧ ∀ planner ∈ ready.planners, Config.IsUsableStem planner.chain.stem) ∧
    (∀ error, config.validate = .error error ↔
      (config.pollIntervalMillis = 0 ∧ error = .zeroPollInterval) ∨
      (config.pollIntervalMillis ≠ 0 ∧ ¬config.HasReadableRange ∧ error = .invalidCidr config.vipCidr Config.cidrReason) ∨
      (config.pollIntervalMillis ≠ 0 ∧ config.HasReadableRange ∧
        ∃ stem, Config.FirstUnusable config.planners stem ∧ error = .invalidChain stem)) ∧
    (∀ error, config.validateDnsAdapter = .error error ↔
      ∃ option, config.LacksFirst option ∧ error = .missing option.name) := by
  refine ⟨fun hvalid hadapter => ?_, fun error => Config.validate_eq_error_iff,
    fun error => Config.validateDnsAdapter_eq_error_iff⟩
  have hsufficient := Config.sufficient_of_validate hvalid hadapter
  refine ⟨hsufficient, fun σ host => ⟨startAdapter_avoids host hadapter hsufficient, startAgent_avoids host config, ?_⟩⟩
  intro state ready hready
  obtain ⟨hinterval, hplanners⟩ := startAgent_eq_ok hready
  rw [hinterval, hplanners, Duration.le_iff_nanoseconds]
  exact ⟨Nat.mul_le_mul_right _ hsufficient.interval, hsufficient.stems⟩

/-- With all options given, those of a control plane too, and one path that is empty. -/
def emptyPathConfig : Config where
  vipCidr := "127.128.0.0/9"
  internalSuffix := "apps.internal."
  sdBaseUrl := "https://sd"
  sdCaFile := some ""
  sdCertFile := some "client.crt"
  sdKeyFile := some "client.key"
  cpAddress := "cp:8443"
  cpCaFile := some "ca.crt"
  cpCertFile := some "client.crt"
  cpKeyFile := some "client.key"
  planners := [.localTraffic { stem := "local-", table := "filter", parent := "FORWARD" } "10.255.0.0/16"]

theorem checks_suffice_and_find_of_empty_path :
    emptyPathConfig.validate = .ok () ∧ emptyPathConfig.validateDnsAdapter = .ok () ∧ emptyPathConfig.Sufficient := by
  have hvalid : emptyPathConfig.validate = .ok () := by decide
  have hadapter : emptyPathConfig.validateDnsAdapter = .ok () := by decide
  exact ⟨hvalid, hadapter, ((checks_suffice_and_find emptyPathConfig).1 hvalid hadapter).1⟩

/-- A path that is set counts as given, also if it is empty. -/
theorem validateDnsAdapter_of_empty_path :
    ¬∀ config : Config, ∀ option : Config.AdapterOption, option.IsNeeded config →
      option.value? config = none ∨ option.value? config = some "" → config.validateDnsAdapter ≠ .ok () := by
  intro h
  exact h emptyPathConfig .sdCaFile nofun (.inr rfl) (by decide)

end OverlayHost.Daemon
