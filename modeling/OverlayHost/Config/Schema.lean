import OverlayHost.Config.Basic

/-!
# Reading a configuration from values

How the fields of a document become options, planners and log levels. Fields that are not known are passed over. Where
the two formats choose a variant in different ways, there is one reader for each.
-/

set_option autoImplicit false

namespace OverlayHost.Config

/-- The level that a name chooses. -/
def levelOfName (name : String) : Except SchemaError LogLevel :=
  match LogLevel.ofName? name with
  | some level => .ok level
  | none => .error (.unknownVariant name (LogLevel.all.map LogLevel.name))

/-- A log level in a TOML document: its name, or a table whose only key is the name, with nothing under it. -/
def LogLevel.ofToml (value : Value) : Except Misfit LogLevel :=
  match value with
  | .text name => Misfit.here (levelOfName name)
  | .table [] => Misfit.here (throw (.variantCount true))
  | .table [(name, content)] => do
    let level ← Misfit.under (.variant name) (Misfit.here (levelOfName name))
    Misfit.under (.content name) <| Misfit.here <| match content with
      | .table [] => return level
      | .sequence [] => return level
      | .tables [] => return level
      | .table _ => throw (.variantNotEmpty false)
      | .sequence _ => throw (.variantNotEmpty false)
      | .tables _ => throw (.variantNotEmpty true)
      | other => throw (.variantContent other.typeName)
  | .table _ => Misfit.here (throw (.variantCount false))
  | _ => Misfit.here (throw .notAVariant)

/-- A log level in JSON: its name, or an object whose only key is the name, with `null` under it. -/
def LogLevel.ofJson : Value → Except SchemaError LogLevel
  | .text name => levelOfName name
  | .table fields =>
    match fields with
    | [(name, content)] => do
      let level ← levelOfName name
      match content with
      | .null => return level
      | other => other.mismatch .json "unit"
    | _ => .error (.wrongValue "map" "map with a single key")
  | other => other.mismatch .json "string or map"

/-- The kinds of planners, by their names in a configuration. -/
inductive PlannerKind where
  | fixed
  | localTraffic
  | remoteTraffic
deriving DecidableEq, Repr

namespace PlannerKind

/-- Every kind. -/
def all : List PlannerKind := [.fixed, .localTraffic, .remoteTraffic]

/-- The name of a kind. -/
def name : PlannerKind → String
  | .fixed => "static"
  | .localTraffic => "local"
  | .remoteTraffic => "remote"

/-- What an error calls the wanted content of a planner of a kind. -/
def wanted : PlannerKind → String
  | .fixed => "struct variant PlannerConfig::Static"
  | .localTraffic => "struct variant PlannerConfig::Local"
  | .remoteTraffic => "struct variant PlannerConfig::Remote"

/-- The kind that a value names. -/
def ofValue (format : Format) (value : Value) : Except SchemaError PlannerKind := do
  let found ← value.toText format "variant identifier"
  match all.find? fun kind => kind.name = found with
  | some kind => return kind
  | none => throw (.unknownVariant found (all.map name))

end PlannerKind

/-- The place of a planner's chain. Every field has to be a text before it matters which are there. -/
def chainOfFields (format : Format) (fields : List (String × Value)) : Except SchemaError Chain := do
  let known := fields.filter fun (name, _) => ["chain", "table", "parent_chain"].contains name
  let texts ← known.mapM fun (name, value) => return (name, ← value.toText format "a string")
  match texts.lookup "chain" with
  | some stem =>
    return { table := (texts.lookup "table").getD "filter", parent := (texts.lookup "parent_chain").getD "FORWARD", stem }
  | none => throw (.missingField "chain")

/-- The rules of a fixed planner: a list of lists of tokens. -/
def rulesOfValue (format : Format) (value : Value) : Except SchemaError (List Rule) := do
  let rules ← value.toSequence format
  rules.mapM fun rule => do
    let tokens ← rule.toSequence format
    return ⟨← tokens.mapM (Value.toText format "a string")⟩

/-- What a field of a table gives; it has to be there. -/
def field {α : Type} (fields : List (String × Value)) (name : String) (read : Value → Except SchemaError α) :
    Except SchemaError α :=
  match fields.lookup name with
  | some value => read value
  | none => .error (.missingField name)

/-- A planner of a known kind: what only this kind has comes before the chain. -/
def plannerOfFields (format : Format) (kind : PlannerKind) (fields : List (String × Value)) :
    Except SchemaError Planner :=
  match kind with
  | .fixed => do
    let rules ← ((fields.lookup "rules").map (rulesOfValue format)).getD (pure [])
    return .fixed (← chainOfFields format fields) rules
  | .localTraffic => do
    let subnet ← field fields "local_subnet" (Value.toText format "a string")
    return .localTraffic (← chainOfFields format fields) subnet
  | .remoteTraffic => do
    let vni ← field fields "vni" (Value.toUnsigned format 32)
    return .remoteTraffic (← chainOfFields format fields) vni

/-- The kind of a planner: a table says it in its field `kind`, a list with its first item. -/
def plannerKind (format : Format) (value : Value) : Except Misfit PlannerKind :=
  match value.fields?, value with
  | some fields, _ =>
    match fields.lookup "kind" with
    | some found => Misfit.under (.field "kind") (Misfit.here (PlannerKind.ofValue format found))
    | none => Misfit.here (throw (.missingField "kind"))
  | none, .sequence (first :: _) => Misfit.under (.item 0) (Misfit.here (PlannerKind.ofValue format first))
  | none, .tables (first :: _) => Misfit.under (.item 0) (Misfit.here (PlannerKind.ofValue format first))
  | none, .sequence [] => Misfit.here (throw (.missingField "kind"))
  | none, .tables [] => Misfit.here (throw (.missingField "kind"))
  | none, other => Misfit.here (other.mismatch format "internally tagged enum PlannerConfig")

/-- A planner whose kind has been read; only a table holds the rest of one. -/
def plannerOfKind (format : Format) (kind : PlannerKind) (value : Value) : Except SchemaError Planner :=
  match value.fields? with
  | some fields => plannerOfFields format kind fields
  | none => value.mismatch format kind.wanted

/-- A planner. -/
def plannerOfValue (format : Format) (value : Value) : Except SchemaError Planner := do
  let kind ← (plannerKind format value).mapError Misfit.error
  plannerOfKind format kind value

/-- The planners of a TOML document. A kind that does not fit is shown where it stands, anything else at the list. -/
def plannersOfValue (value : Value) : Except Misfit (List Planner) := do
  let items ← Misfit.here (value.toSequence .toml)
  items.zipIdx.mapM fun (item, n) => do
    let kind ← Misfit.under (.item n) (plannerKind .toml item)
    Misfit.here (plannerOfKind .toml kind item)

/-- A configuration with one more field of a TOML document taken in; unknown fields are passed over. -/
def withField (config : Config) (name : String) (value : Value) : Except Misfit Config :=
  let text := Misfit.here (value.toText .toml "a string")
  let path := Misfit.here (value.toText .toml "path string")
  let number := Misfit.here (value.toUnsigned .toml 64)
  match name with
  | "vip_cidr" => return { config with vipCidr := ← text }
  | "internal_apps_suffix" => return { config with internalSuffix := ← text }
  | "sd_base_url" => return { config with sdBaseUrl := ← text }
  | "sd_ca_file" => return { config with sdCaFile := some (← path) }
  | "sd_client_cert_file" => return { config with sdCertFile := some (← path) }
  | "sd_client_key_file" => return { config with sdKeyFile := some (← path) }
  | "cp_address" => return { config with cpAddress := ← text }
  | "cp_ca_file" => return { config with cpCaFile := some (← path) }
  | "cp_client_cert_file" => return { config with cpCertFile := some (← path) }
  | "cp_client_key_file" => return { config with cpKeyFile := some (← path) }
  | "cp_timeout_ms" => return { config with cpTimeoutMillis := ← number }
  | "poll_interval_ms" => return { config with pollIntervalMillis := ← number }
  | "planners" => return { config with planners := ← plannersOfValue value }
  | "iptables_logging" => return { config with logging := ← Misfit.here (value.toBoolean .toml) }
  | "metrics_address" => return { config with metricsAddress := some (← text) }
  | "metrics_prefix" => return { config with metricsStem := ← text }
  | "log_level" => return { config with logLevel := ← LogLevel.ofToml value }
  | "debug_server_address" => return { config with debugServerAddress := ← text }
  | "dns_adapter_address" => return { config with dnsAdapterAddress := ← text }
  | _ => return config

/-- The configuration that the fields of a TOML document give, taken in one after the other. -/
def ofFields (fields : List (String × Value)) : Except Misfit Config :=
  fields.foldlM (fun config (name, value) => Misfit.under (.field name) (withField config name value)) {}

end OverlayHost.Config
