import Mathlib.Data.List.Basic
import OverlayHost.Config.Basic

/-!
# What the checks of a configuration find

Each check answers its first fault. `validate_eq_error_iff` says which one that is for both agents, and
`validateDnsAdapter_eq_error_iff` for the options of the DNS adapter, as a list of options with the values that a
configuration gives them. A configuration that passes both checks is `Sufficient`.
-/

set_option autoImplicit false

namespace OverlayHost.Config

variable {config : Config} {error : Error}

/-! ## The check of both agents -/

/-- What the name of a chain may begin with. -/
def IsUsableStem (stem : String) : Prop := stem ≠ "" ∧ ∀ c ∈ stem.toList, c.toNat < 128

theorem isChainStem_iff {stem : String} : isChainStem stem = true ↔ IsUsableStem stem := by
  simp [isChainStem, IsUsableStem]

/-- The chain of the first planner whose chain cannot be named has a stem. -/
def FirstUnusable (planners : List Planner) (stem : String) : Prop :=
  ∃ before planner after, planners = before ++ planner :: after ∧ planner.chain.stem = stem ∧ ¬IsUsableStem stem ∧
    ∀ earlier ∈ before, IsUsableStem earlier.chain.stem

/-- Whether the range that VIPs are drawn from is none, or else one that can be read. -/
def HasReadableRange (config : Config) : Prop :=
  config.vipCidr = "" ∨ ∃ network, Net.Network.ofString? config.vipCidr = some network

/-- The last part of the check. -/
def validateStems (planners : List Planner) : Except Error Unit :=
  match planners.find? fun planner => !isChainStem planner.chain.stem with
  | some planner => .error (.invalidChain planner.chain.stem)
  | none => .ok ()

theorem firstUnusable_iff {planners : List Planner} {stem : String} :
    FirstUnusable planners stem ↔ ∃ planner, planner.chain.stem = stem ∧
      planners.find? (fun planner => !isChainStem planner.chain.stem) = some planner := by
  simp only [List.find?_eq_some_iff_append, Bool.not_not, Bool.not_eq_true', ← Bool.not_eq_true, isChainStem_iff]
  constructor
  · rintro ⟨before, planner, after, hsplit, rfl, hbad, hbefore⟩
    exact ⟨planner, rfl, hbad, before, after, hsplit, hbefore⟩
  · rintro ⟨planner, rfl, hbad, before, after, hsplit, hbefore⟩
    exact ⟨before, planner, after, hsplit, rfl, hbad, hbefore⟩

theorem validateStems_eq_error_iff {planners : List Planner} :
    validateStems planners = .error error ↔ ∃ stem, FirstUnusable planners stem ∧ error = .invalidChain stem := by
  unfold validateStems
  simp only [firstUnusable_iff]
  cases planners.find? fun planner => !isChainStem planner.chain.stem <;> simp [eq_comm]

theorem validateStems_eq_ok_iff {planners : List Planner} :
    validateStems planners = .ok () ↔ ∀ planner ∈ planners, IsUsableStem planner.chain.stem := by
  unfold validateStems
  simp only [← isChainStem_iff]
  cases hfound : planners.find? fun planner => !isChainStem planner.chain.stem with
  | none => simpa using hfound
  | some planner =>
    have hbad := List.find?_some hfound
    have hmem := List.mem_of_find?_eq_some hfound
    simp only [reduceCtorEq, false_iff, not_forall]
    exact ⟨planner, hmem, by simpa using hbad⟩

theorem validate_of_zero (hinterval : config.pollIntervalMillis = 0) : config.validate = .error .zeroPollInterval := by
  unfold validate
  rw [if_pos hinterval]
  rfl

theorem validate_of_unreadable (hinterval : config.pollIntervalMillis ≠ 0) (hrange : ¬config.HasReadableRange) :
    config.validate = .error (.invalidCidr config.vipCidr cidrReason) := by
  obtain ⟨hcidr, hnone⟩ := not_or.mp hrange
  have hnetwork : config.vipNetwork = .error (.invalidCidr config.vipCidr cidrReason) := by
    rw [vipNetwork, Option.eq_none_iff_forall_not_mem.mpr (fun network h => hnone ⟨network, h⟩)]
  unfold validate
  rw [if_neg hinterval, if_pos hcidr, hnetwork]
  rfl

theorem validate_of_readable (hinterval : config.pollIntervalMillis ≠ 0) (hrange : config.HasReadableRange) :
    config.validate = validateStems config.planners := by
  unfold validate
  rw [if_neg hinterval]
  by_cases hcidr : config.vipCidr = ""
  · rw [if_neg (not_not.mpr hcidr)]
    rfl
  · obtain ⟨network, hnetwork⟩ := hrange.resolve_left hcidr
    rw [if_pos hcidr, vipNetwork, hnetwork]
    rfl

/-- The check answers an interval of zero, else a range that cannot be read, else the first chain that cannot be named. -/
theorem validate_eq_error_iff :
    config.validate = .error error ↔
      (config.pollIntervalMillis = 0 ∧ error = .zeroPollInterval) ∨
      (config.pollIntervalMillis ≠ 0 ∧ ¬config.HasReadableRange ∧ error = .invalidCidr config.vipCidr cidrReason) ∨
      (config.pollIntervalMillis ≠ 0 ∧ config.HasReadableRange ∧
        ∃ stem, FirstUnusable config.planners stem ∧ error = .invalidChain stem) := by
  by_cases hinterval : config.pollIntervalMillis = 0
  · simp [validate_of_zero hinterval, hinterval, eq_comm]
  by_cases hrange : config.HasReadableRange
  · simp [validate_of_readable hinterval hrange, validateStems_eq_error_iff, hinterval, hrange]
  · simp [validate_of_unreadable hinterval hrange, hinterval, hrange, eq_comm]

theorem validate_eq_ok_iff :
    config.validate = .ok () ↔ config.pollIntervalMillis ≠ 0 ∧ config.HasReadableRange ∧
      ∀ planner ∈ config.planners, IsUsableStem planner.chain.stem := by
  by_cases hinterval : config.pollIntervalMillis = 0
  · simp [validate_of_zero hinterval, hinterval]
  by_cases hrange : config.HasReadableRange
  · simp [validate_of_readable hinterval hrange, validateStems_eq_ok_iff, hinterval, hrange]
  · simp [validate_of_unreadable hinterval hrange, hrange]

/-! ## The check of the DNS adapter -/

/-- An option that the DNS adapter may need. -/
inductive AdapterOption where
  | vipCidr
  | internalSuffix
  | sdBaseUrl
  | sdCaFile
  | sdCertFile
  | sdKeyFile
  | cpCaFile
  | cpCertFile
  | cpKeyFile
deriving DecidableEq, Repr

namespace AdapterOption

/-- The options in the order in which they are asked for. -/
def all : List AdapterOption :=
  [.vipCidr, .internalSuffix, .sdBaseUrl, .sdCaFile, .sdCertFile, .sdKeyFile, .cpCaFile, .cpCertFile, .cpKeyFile]

def name : AdapterOption → String
  | .vipCidr => "vip_cidr"
  | .internalSuffix => "internal_apps_suffix"
  | .sdBaseUrl => "sd_base_url"
  | .sdCaFile => "sd_ca_file"
  | .sdCertFile => "sd_client_cert_file"
  | .sdKeyFile => "sd_client_key_file"
  | .cpCaFile => "cp_ca_file"
  | .cpCertFile => "cp_client_cert_file"
  | .cpKeyFile => "cp_client_key_file"

/-- Whether the option is the path of a file, which may be unset. -/
def isPath : AdapterOption → Bool
  | .vipCidr | .internalSuffix | .sdBaseUrl => false
  | _ => true

/-- Whether the option is there for the control plane only. -/
def isOfControlPlane : AdapterOption → Bool
  | .cpCaFile | .cpCertFile | .cpKeyFile => true
  | _ => false

/-- What a configuration gives for the option, if it is set. -/
def value? (config : Config) : AdapterOption → Option String
  | .vipCidr => some config.vipCidr
  | .internalSuffix => some config.internalSuffix
  | .sdBaseUrl => some config.sdBaseUrl
  | .sdCaFile => config.sdCaFile
  | .sdCertFile => config.sdCertFile
  | .sdKeyFile => config.sdKeyFile
  | .cpCaFile => config.cpCaFile
  | .cpCertFile => config.cpCertFile
  | .cpKeyFile => config.cpKeyFile

/-- Whether the adapter needs the option: those of the control plane only if it has an address. -/
def IsNeeded (config : Config) (option : AdapterOption) : Prop := option.isOfControlPlane → config.cpAddress ≠ ""

/-- Whether the option is not given: it is unset, or a text that is empty. A path that is set is given. -/
def IsMissing (config : Config) (option : AdapterOption) : Prop :=
  option.value? config = none ∨ option.isPath = false ∧ option.value? config = some ""

instance (config : Config) (option : AdapterOption) : Decidable (option.IsNeeded config) :=
  inferInstanceAs (Decidable (_ → _))

instance (config : Config) (option : AdapterOption) : Decidable (option.IsMissing config) :=
  inferInstanceAs (Decidable (_ ∨ _))

end AdapterOption

/-- An option that is needed is missing. -/
def Lacks (config : Config) (option : AdapterOption) : Prop := option.IsNeeded config ∧ option.IsMissing config

instance (config : Config) (option : AdapterOption) : Decidable (config.Lacks option) :=
  inferInstanceAs (Decidable (_ ∧ _))

/-- The first option that is needed and missing. -/
def LacksFirst (config : Config) (option : AdapterOption) : Prop :=
  ∃ before after, AdapterOption.all = before ++ option :: after ∧ config.Lacks option ∧
    ∀ earlier ∈ before, ¬config.Lacks earlier

theorem lacksFirst_iff {option : AdapterOption} :
    config.LacksFirst option ↔ AdapterOption.all.find? (fun option => config.Lacks option) = some option := by
  simp only [LacksFirst, List.find?_eq_some_iff_append, decide_eq_true_eq, Bool.not_eq_true', decide_eq_false_iff_not]
  grind

theorem dnsAdapterOptions_eq (config : Config) :
    config.dnsAdapterOptions =
      (AdapterOption.all.filter fun option => option.IsNeeded config).map fun option =>
        (option.name, !decide (option.IsMissing config)) := by
  have hpath (path : Option String) : (!decide (path = none)) = path.isSome := by cases path <;> rfl
  by_cases haddress : config.cpAddress = "" <;>
    simp [dnsAdapterOptions, hasControlPlane, AdapterOption.all, AdapterOption.IsNeeded, AdapterOption.IsMissing,
      AdapterOption.isOfControlPlane, AdapterOption.isPath, AdapterOption.value?, AdapterOption.name, haddress, hpath]

theorem validateDnsAdapter_eq (config : Config) :
    config.validateDnsAdapter =
      match AdapterOption.all.find? fun option => config.Lacks option with
      | some option => .error (.missing option.name)
      | none => .ok () := by
  have hfind : config.dnsAdapterOptions.find? (fun option => !option.2) =
      (AdapterOption.all.find? fun option => config.Lacks option).map fun option =>
        (option.name, !decide (option.IsMissing config)) := by
    rw [dnsAdapterOptions_eq, List.find?_map, List.find?_filter]
    simp only [Function.comp_def, Bool.not_not, decide_eq_true_eq]
    rfl
  unfold validateDnsAdapter
  rw [hfind]
  cases AdapterOption.all.find? fun option => config.Lacks option <;> rfl

theorem validateDnsAdapter_eq_error_iff :
    config.validateDnsAdapter = .error error ↔ ∃ option, config.LacksFirst option ∧ error = .missing option.name := by
  rw [validateDnsAdapter_eq]
  simp only [lacksFirst_iff]
  cases AdapterOption.all.find? fun option => config.Lacks option <;> simp [eq_comm]

theorem validateDnsAdapter_eq_ok_iff :
    config.validateDnsAdapter = .ok () ↔ ∀ option, ¬config.Lacks option := by
  have hall (option : AdapterOption) : option ∈ AdapterOption.all := by cases option <;> decide
  rw [validateDnsAdapter_eq]
  cases hfound : AdapterOption.all.find? fun option => config.Lacks option with
  | none => simpa [hall] using hfound
  | some option =>
    have hlacks : config.Lacks option := by simpa using List.find?_some hfound
    simp only [reduceCtorEq, false_iff, not_forall, not_not]
    exact ⟨option, hlacks⟩

/-! ## What passes both checks -/

/-- A configuration with all that the agents rely on once it is checked. -/
structure Sufficient (config : Config) : Prop where
  network : ∃ network, Net.Network.ofString? config.vipCidr = some network ∧ config.vipNetwork = .ok network.truncate
  discovery : ∃ authorities certificate key,
    config.sdCaFile = some authorities ∧ config.sdCertFile = some certificate ∧ config.sdKeyFile = some key
  controlPlane : config.hasControlPlane → ∃ authorities certificate key,
    config.cpCaFile = some authorities ∧ config.cpCertFile = some certificate ∧ config.cpKeyFile = some key
  interval : 1 ≤ config.pollIntervalMillis
  stems : ∀ planner ∈ config.planners, IsUsableStem planner.chain.stem

theorem sufficient_of_validate (hvalid : config.validate = .ok ()) (hadapter : config.validateDnsAdapter = .ok ()) :
    config.Sufficient := by
  obtain ⟨hinterval, hrange, hstems⟩ := validate_eq_ok_iff.mp hvalid
  have hgiven (option : AdapterOption) (hneeded : option.IsNeeded config) : ¬option.IsMissing config :=
    fun hmissing => validateDnsAdapter_eq_ok_iff.mp hadapter option ⟨hneeded, hmissing⟩
  have hset (option : AdapterOption) (hneeded : option.IsNeeded config) : ∃ path, option.value? config = some path :=
    Option.ne_none_iff_exists'.mp fun hnone => hgiven option hneeded (.inl hnone)
  have hcidr : config.vipCidr ≠ "" := fun hempty => hgiven .vipCidr nofun (.inr ⟨rfl, congrArg some hempty⟩)
  obtain ⟨network, hnetwork⟩ := hrange.resolve_left hcidr
  refine ⟨⟨network, hnetwork, by rw [vipNetwork, hnetwork]⟩, ?_, fun hcontrol => ?_, by omega, hstems⟩
  · obtain ⟨authorities, hauthorities⟩ := hset .sdCaFile nofun
    obtain ⟨certificate, hcertificate⟩ := hset .sdCertFile nofun
    obtain ⟨key, hkey⟩ := hset .sdKeyFile nofun
    exact ⟨authorities, certificate, key, hauthorities, hcertificate, hkey⟩
  · have haddress : config.cpAddress ≠ "" := by simpa [hasControlPlane] using hcontrol
    obtain ⟨authorities, hauthorities⟩ := hset .cpCaFile fun _ => haddress
    obtain ⟨certificate, hcertificate⟩ := hset .cpCertFile fun _ => haddress
    obtain ⟨key, hkey⟩ := hset .cpKeyFile fun _ => haddress
    exact ⟨authorities, certificate, key, hauthorities, hcertificate, hkey⟩

end OverlayHost.Config
