import Coach.Config.Settings
import Coach.Execution.LocalTier
import Coach.Execution.SandboxTier
import Coach.Execution.SimulationTier
import Coach.Model.Anthropic
import Coach.Sandbox.Remote
import Coach.Session.Basic

/-!
# A tutor from settings

Which tiers a tutor has, and which model it asks, is said by its settings.

## Main definitions

* `Gateways`: the services that the parts of a tutor talk to
* `modelFor`: the model that settings ask for
* `assemble`: the parts of a tutor

## Design notes

The sandbox comes first if it is enabled, a model second if there is one, and the local simulation is
always there and always last.
-/

namespace Coach.Session

open Coach.Config Coach.Execution Coach.Model Coach.Sandbox Coach.Service Coach.Storage

/-- The services that the parts of a tutor talk to. -/
structure Gateways (σ : Type) where
  sandbox : WebService σ
  groq : WebService σ
  anthropic : AnthropicSettings → Anthropic.Request → σ → Anthropic.Response × σ

/-- A model with its name. -/
structure NamedModel (σ : Type) where
  name : String
  model : Model σ

variable {σ : Type}

/-- The fault of a provider without settings. -/
def missingProvider (p : Provider) : Fault :=
  { kind := .value, message := s!"{p.title} configuration required when provider is '{p.name}'" }

/-- The model that settings ask for. -/
def modelFor (settings : Settings) (gateways : Gateways σ) : Except Fault (Option (NamedModel σ)) :=
  match settings.model.provider with
  | .none => .ok none
  | .groq => match settings.model.groq with
    | none => .error (missingProvider .groq)
    | some groq =>
      let more := settings.retry.maxAttempts.toNat - 1
      .ok (some ⟨groq.model, Groq.model groq {} more gateways.groq⟩)
  | .anthropic => match settings.model.anthropic with
    | none => .error (missingProvider .anthropic)
    | some anthropic =>
      .ok (some ⟨anthropic.model, Anthropic.model {} (gateways.anthropic anthropic)⟩)

/-- Where the state below the cache is kept. -/
def setModel (m : σ) (s : Remembering σ) : Remembering σ := { s with model := m }

/-- The tiers that settings ask for. -/
def tiersFor (settings : Settings) (gateways : Gateways σ) (model : Option (NamedModel σ)) :
    List (Tier (Remembering σ)) :=
  let sandbox := remoteSandbox settings.sandbox gateways.sandbox
  (if settings.sandbox.enabled then
    [(sandboxTier settings.sandbox sandbox).within Remembering.model setModel] else []) ++
  (match model with
    | some m => [simulationTier m.model settings.model.cacheSeconds settings.model.cacheSize]
    | none => []) ++ [localTier]

/-- The parts of a tutor, with the name of its model. -/
def assemble (settings : Settings) (gateways : Gateways σ) (store : Store σ) :
    Except Fault (Parts (Remembering σ) × Option String) := do
  let model ← modelFor settings gateways
  return ({ tiers := tiersFor settings gateways model
            model := model.map fun m => m.model.within Remembering.model setModel
            store := store.within Remembering.model setModel }, model.map (·.name))

end Coach.Session
