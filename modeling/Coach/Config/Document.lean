import Coach.Config.Settings

/-!
# Settings as a document

The JSON object that settings are read from.

## Main definitions

* `Settings.json`: every setting under its name, also those that have their defaults
-/

namespace Coach.Config

/-- The settings of the sandbox. -/
def SandboxSettings.json (s : SandboxSettings) : Json :=
  .object [("enabled", .bool s.enabled), ("url", .string s.url), ("language", .string s.language),
    ("version", .string s.version), ("file_name", .string s.fileName), ("timeout", .float s.timeout)]

/-- The settings of a Groq gateway. -/
def GroqSettings.json (s : GroqSettings) : Json :=
  .object [("api_key", .string s.apiKey), ("base_url", .string s.baseUrl), ("model", .string s.model),
    ("max_tokens", .int s.maxTokens), ("temperature", .float s.temperature),
    ("timeout", .float s.timeout)]

/-- The settings of an Anthropic gateway. -/
def AnthropicSettings.json (s : AnthropicSettings) : Json :=
  .object [("api_key", .string s.apiKey), ("model", .string s.model), ("max_tokens", .int s.maxTokens),
    ("temperature", .float s.temperature), ("timeout", .float s.timeout)]

/-- The settings of the model gateway. -/
def ModelSettings.json (s : ModelSettings) : Json :=
  .object [("provider", .string s.provider.name), ("groq", (s.groq.map GroqSettings.json).getD .null),
    ("anthropic", (s.anthropic.map AnthropicSettings.json).getD .null),
    ("simulation_cache_ttl", .int s.cacheSeconds), ("simulation_cache_size", .int s.cacheSize)]

/-- Where state is kept. -/
def StorageSettings.json (s : StorageSettings) : Json :=
  .object [("path", .string s.path), ("history_limit", .int s.historyLimit)]

/-- The settings of the log. -/
def LoggingSettings.json (s : LoggingSettings) : Json :=
  .object [("level", .string s.level.name), ("format", .string s.form.name),
    ("file", .object [("enabled", .bool s.file.enabled), ("path", .string s.file.path)])]

/-- The settings of second attempts. -/
def RetrySettings.json (s : RetrySettings) : Json :=
  .object [("max_attempts", .int s.maxAttempts), ("initial_delay", .float s.initialDelay),
    ("max_delay", .float s.maxDelay)]

/-- All settings. -/
def Settings.json (s : Settings) : Json :=
  .object [("sandbox", s.sandbox.json), ("llm", s.model.json), ("storage", s.storage.json),
    ("logging", s.logging.json), ("retry", s.retry.json)]

end Coach.Config
