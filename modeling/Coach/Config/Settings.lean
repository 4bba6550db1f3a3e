import Coach.Files.Path
import Coach.Schema.Basic
import Coach.Security.Address

/-!
# Settings

The settings of the tutor with their defaults, and how they are read off JSON values. Members that are
not known are passed over.

## Main definitions

* `SandboxSettings`, `GroqSettings`, `AnthropicSettings`, `ModelSettings`, `StorageSettings`,
  `LoggingSettings`, `RetrySettings`
* `Settings`: all of them
* `Settings.read`: reads settings, given the home directory
* `Settings.fault?`: what the sections leave open together
-/

namespace Coach.Config

open Coach.Files Coach.Schema Coach.Security Coach.Text

/-- A service that compiles and runs programs. -/
structure SandboxSettings where
  enabled : Bool := true
  url : String := "https://emkc.org/api/v2/piston/execute"
  language : String := "java"
  version : String := "15.0.2"
  fileName : String := "Main.java"
  timeout : Float := 5.0

/-- A gateway of the Groq kind. -/
structure GroqSettings where
  apiKey : String
  baseUrl : String := "https://api.groq.com/openai/v1/chat/completions"
  model : String := "llama-3.3-70b-versatile"
  maxTokens : Int := 8192
  temperature : Float := 0.1
  timeout : Float := 30.0

/-- A gateway of the Anthropic kind. -/
structure AnthropicSettings where
  apiKey : String
  model : String := "claude-3-5-sonnet-20241022"
  maxTokens : Int := 4096
  temperature : Float := 0.1
  timeout : Float := 30.0

/-- Which gateway to use. -/
inductive Provider where
  | groq
  | anthropic
  | none
  deriving DecidableEq, Repr

namespace Provider

/-- The name of a provider. -/
def name : Provider → String
  | .groq => "groq"
  | .anthropic => "anthropic"
  | .none => "none"

/-- The provider of a name. -/
def ofName? : String → Option Provider
  | "groq" => some .groq
  | "anthropic" => some .anthropic
  | "none" => some .none
  | _ => Option.none

end Provider

/-- The model gateway. -/
structure ModelSettings where
  provider : Provider := .none
  groq : Option GroqSettings := none
  anthropic : Option AnthropicSettings := none
  cacheSeconds : Int := 300
  cacheSize : Int := 64

/-- Where state is kept. -/
structure StorageSettings where
  path : String
  historyLimit : Int := 20

/-- The weight of a log entry. -/
inductive LogLevel where
  | debug
  | info
  | warning
  | error
  | critical
  deriving DecidableEq, Repr

namespace LogLevel

/-- The name of a level. -/
def name : LogLevel → String
  | .debug => "DEBUG"
  | .info => "INFO"
  | .warning => "WARNING"
  | .error => "ERROR"
  | .critical => "CRITICAL"

/-- The level of a name. -/
def ofName? : String → Option LogLevel
  | "DEBUG" => some .debug
  | "INFO" => some .info
  | "WARNING" => some .warning
  | "ERROR" => some .error
  | "CRITICAL" => some .critical
  | _ => none

/-- The rank of a level. -/
def rank : LogLevel → Nat
  | .debug => 10
  | .info => 20
  | .warning => 30
  | .error => 40
  | .critical => 50

end LogLevel

/-- The form of a log. -/
inductive LogForm where
  | json
  | console
  deriving DecidableEq, Repr

namespace LogForm

/-- The name of a form. -/
def name : LogForm → String
  | .json => "json"
  | .console => "console"

/-- The form of a name. -/
def ofName? : String → Option LogForm
  | "json" => some .json
  | "console" => some .console
  | _ => none

end LogForm

/-- A log in a file. -/
structure LogFileSettings where
  enabled : Bool := false
  path : String := "~/.ai-code-tutor/tutor.log"
  deriving DecidableEq

/-- The log. -/
structure LoggingSettings where
  level : LogLevel := .info
  form : LogForm := .console
  file : LogFileSettings := {}

/-- Second attempts. -/
structure RetrySettings where
  maxAttempts : Int := 2
  initialDelay : Float := 0.5
  maxDelay : Float := 5.0

/-- Where state is kept when nothing is set. -/
def defaultStatePath : String := "~/.ai-code-tutor/state.json"

/-- All settings. -/
structure Settings where
  sandbox : SandboxSettings := {}
  model : ModelSettings := {}
  storage : StorageSettings := { path := defaultStatePath }
  logging : LoggingSettings := {}
  retry : RetrySettings := {}

/-! ### Reading -/

/-- A path. -/
def pathText : Reader String
  | .string s => .valid (tidyPath s)
  | _ => .refuse .pathType

/-- A web address. -/
def serviceAddress : Reader String := fun j =>
  (text j).andThen fun s => if isServiceAddress s then .valid s else .refuse .custom

/-- Reads the settings of the sandbox. -/
def SandboxSettings.read : Reader SandboxSettings := fields fun o =>
  let d : SandboxSettings := {}
  SandboxSettings.mk
    <$> withDefault o "enabled" d.enabled flag
    <*> withDefault o "url" d.url serviceAddress
    <*> withDefault o "language" d.language text
    <*> withDefault o "version" d.version text
    <*> withDefault o "file_name" d.fileName text
    <*> withDefault o "timeout" d.timeout (doubleAbove 0 (doubleTo 60 double))

/-- Reads the settings of a Groq gateway. -/
def GroqSettings.read : Reader GroqSettings := fields fun o =>
  let d : GroqSettings := { apiKey := "" }
  GroqSettings.mk
    <$> required o "api_key" text
    <*> withDefault o "base_url" d.baseUrl serviceAddress
    <*> withDefault o "model" d.model text
    <*> withDefault o "max_tokens" d.maxTokens integer
    <*> withDefault o "temperature" d.temperature (doubleFrom 0 (doubleTo 2 double))
    <*> withDefault o "timeout" d.timeout (doubleAbove 0 double)

/-- Reads the settings of an Anthropic gateway. -/
def AnthropicSettings.read : Reader AnthropicSettings := fields fun o =>
  let d : AnthropicSettings := { apiKey := "" }
  AnthropicSettings.mk
    <$> required o "api_key" text
    <*> withDefault o "model" d.model text
    <*> withDefault o "max_tokens" d.maxTokens integer
    <*> withDefault o "temperature" d.temperature double
    <*> withDefault o "timeout" d.timeout (doubleAbove 0 double)

/-- Reads the settings of the model gateway. -/
def ModelSettings.read : Reader ModelSettings := fields fun o =>
  let d : ModelSettings := {}
  ModelSettings.mk
    <$> withDefault o "provider" d.provider (oneOf Provider.ofName?)
    <*> withDefault o "groq" none (optional GroqSettings.read)
    <*> withDefault o "anthropic" none (optional AnthropicSettings.read)
    <*> withDefault o "simulation_cache_ttl" d.cacheSeconds (integerFrom 0 integer)
    <*> withDefault o "simulation_cache_size" d.cacheSize (integerFrom 1 integer)

/-- Reads where state is kept. -/
def StorageSettings.read (home : String) : Reader StorageSettings := fields fun o =>
  StorageSettings.mk
    <$> withDefault o "path" defaultStatePath (fun j => (pathText j).map (expandHome home))
    <*> withDefault o "history_limit" 20 (integerFrom 1 (integerTo 500 integer))

/-- Reads the settings of a log in a file. -/
def LogFileSettings.read : Reader LogFileSettings := fields fun o =>
  let d : LogFileSettings := {}
  LogFileSettings.mk
    <$> withDefault o "enabled" d.enabled flag
    <*> withDefault o "path" d.path pathText

/-- Reads the settings of the log. -/
def LoggingSettings.read : Reader LoggingSettings := fields fun o =>
  let d : LoggingSettings := {}
  LoggingSettings.mk
    <$> withDefault o "level" d.level (oneOf LogLevel.ofName?)
    <*> withDefault o "format" d.form (oneOf LogForm.ofName?)
    <*> withDefault o "file" d.file LogFileSettings.read

/-- Reads the settings of second attempts. -/
def RetrySettings.read : Reader RetrySettings := fields fun o =>
  let d : RetrySettings := {}
  RetrySettings.mk
    <$> withDefault o "max_attempts" d.maxAttempts (integerFrom 1 (integerTo 10 integer))
    <*> withDefault o "initial_delay" d.initialDelay (doubleFrom 0.1 (doubleTo 10 double))
    <*> withDefault o "max_delay" d.maxDelay (doubleFrom 1 (doubleTo 60 double))

/-- Reads all settings. -/
def Settings.read (home : String) : Reader Settings := fields fun o =>
  Settings.mk
    <$> withDefault o "sandbox" {} SandboxSettings.read
    <*> withDefault o "llm" {} ModelSettings.read
    <*> withDefault o "storage" { path := defaultStatePath } (StorageSettings.read home)
    <*> withDefault o "logging" {} LoggingSettings.read
    <*> withDefault o "retry" {} RetrySettings.read

/-- Whether the chosen provider has no settings of its own. -/
def ModelSettings.lacksProvider (s : ModelSettings) : Bool :=
  match s.provider with
  | .groq => s.groq.isNone
  | .anthropic => s.anthropic.isNone
  | .none => false

/-- The name of a provider with a capital letter. -/
def Provider.title : Provider → String
  | .groq => "Groq"
  | .anthropic => "Anthropic"
  | .none => "None"

/-- What the sections leave open together: the settings of the chosen provider. -/
def Settings.fault? (s : Settings) : Option String :=
  if s.model.lacksProvider then
    let p := s.model.provider
    some s!"{p.title} provider selected but {p.name} config missing"
  else none

end Coach.Config
