import EventSearch.Json.Basic
import EventSearch.Toml.Reader

/-!
# Configuration

The settings of the client and of logging, which come from a TOML file, from environment
variables that override it, and from defaults for what is given nowhere.
-/
namespace EventSearch

structure ClientSettings where
  url : String := "http://localhost:8080"
  timeoutMs : UInt64 := 30000
deriving DecidableEq, Repr

structure LoggingSettings where
  level : String := "info"
  format : String := "pretty"
deriving DecidableEq, Repr

structure Config where
  client : ClientSettings := {}
  logging : LoggingSettings := {}
deriving DecidableEq, Repr

inductive ConfigError where
  | missingFile
  | unreadable
  | unknownFormat (format : String)
deriving DecidableEq, Repr

/-- The message, with the given words for what comes from elsewhere. -/
def ConfigError.message (elsewhere : String) : ConfigError → String
  | .missingFile => "Failed to read config file: " ++ elsewhere
  | .unreadable => "Failed to parse config file: " ++ elsewhere
  | .unknownFormat format =>
      "Failed to initialize logging: unknown log format '" ++ format ++
        "', expected 'pretty' or 'json'"

namespace Config

/-- The value of a setting: the default when it is missing. -/
def setting? {α : Type} (read : Toml → Option α) (default : α) : Option Toml → Option α
  | none => some default
  | some v => read v

def text? : Toml → Option String
  | .string s => some s
  | _ => none

/-- A whole number that is not negative. TOML has none beyond a word. -/
def count? : Toml → Option UInt64
  | .integer n => if n < 0 then none else some (UInt64.ofNat n.toNat)
  | _ => none

/-- The settings of a section in order. A table holds them by name, an array by position, and a
point in time holds none. -/
def section? (names : List String) : Option Toml → Option (List (Option Toml))
  | none => some (names.map fun _ => none)
  | some (.table entries) => some (names.map fun name => entries.lookup name)
  | some (.array items) => some ((List.range names.length).map fun i => items[i]?)
  | some (.dateTime _) => some (names.map fun _ => none)
  | some _ => none

def client? (v : Option Toml) : Option ClientSettings := do
  let defaults : ClientSettings := {}
  match ← section? ["url", "timeout_ms"] v with
  | [url, timeout] =>
      some ⟨← setting? text? defaults.url url, ← setting? count? defaults.timeoutMs timeout⟩
  | _ => none

def logging? (v : Option Toml) : Option LoggingSettings := do
  let defaults : LoggingSettings := {}
  match ← section? ["level", "format"] v with
  | [level, format] =>
      some ⟨← setting? text? defaults.level level, ← setting? text? defaults.format format⟩
  | _ => none

def ofToml? : Toml → Option Config
  | .table entries => do
      some ⟨← client? (entries.lookup "client"), ← logging? (entries.lookup "logging")⟩
  | _ => none

/-- The configuration of a file, given its content if there is such a file. -/
def load (content : Option String) : Except ConfigError Config :=
  match content with
  | none => .error .missingFile
  | some text =>
      match (Toml.parse? text).bind ofToml? with
      | some config => .ok config
      | none => .error .unreadable

/-- Environment variables with their values. -/
abbrev Environment := List (String × String)

/-- A word written with digits, with an optional plus sign in front. -/
def word? (text : String) : Option UInt64 := do
  let n ← Text.natural? text.toList
  if n < Nat.pow 2 64 then some (UInt64.ofNat n) else none

/-- The configuration with the settings that the environment gives. A timeout that is no word is
left alone. -/
def override (env : Environment) (config : Config) : Config :=
  { client :=
      { url := (env.lookup "SPANQL_URL").getD config.client.url
        timeoutMs := ((env.lookup "SPANQL_TIMEOUT_MS").bind word?).getD config.client.timeoutMs }
    logging :=
      { level := (env.lookup "SPANQL_LOG_LEVEL").getD config.logging.level
        format := (env.lookup "SPANQL_LOG_FORMAT").getD config.logging.format } }

def ofEnvironment (env : Environment) : Config := override env {}

def loadWith (env : Environment) (content : Option String) : Except ConfigError Config :=
  (load content).map (override env)

/-- The first of several files that exists and can be read, or the defaults. -/
def loadFirst (env : Environment) : List (Option String) → Config
  | [] => ofEnvironment env
  | content :: rest =>
      match loadWith env content with
      | .ok config => config
      | .error _ => loadFirst env rest

/-- The lines of a file that states the defaults. -/
def defaultLines : List String :=
  ["# Spanql Configuration",
   "#",
   "# Environment variables override these settings:",
   "# - SPANQL_URL",
   "# - SPANQL_TIMEOUT_MS",
   "# - SPANQL_LOG_LEVEL",
   "# - SPANQL_LOG_FORMAT",
   "",
   "[client]",
   "# Search service base URL",
   "url = \"http://localhost:8080\"",
   "",
   "# Request timeout in milliseconds",
   "timeout_ms = 30000",
   "",
   "[logging]",
   "# Log level: trace, debug, info, warn, error",
   "level = \"info\"",
   "",
   "# Log format: pretty (for development) or json (for production)",
   "format = \"pretty\""]

/-- The content of a file that states the defaults. -/
def defaultFile : String := String.join (defaultLines.map fun line => line ++ "\n")

end Config

namespace LoggingSettings

/-- Log lines are pretty or JSON. -/
def check (settings : LoggingSettings) : Except ConfigError Unit :=
  if settings.format = "pretty" ∨ settings.format = "json" then .ok ()
  else .error (.unknownFormat settings.format)

end LoggingSettings

end EventSearch
