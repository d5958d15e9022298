import Stencil.Settings.Basic
import Stencil.Record.Read

/-!
Settings read from values, as files and callers give them.
-/

namespace Stencil

open Record

/-- A provider's settings. Without a model they have the one for their kind. -/
def ProviderSettings.read : Reader ProviderSettings := fun v =>
  let build (kind : ProviderKind) (apiKey : String) (model : Option String) (temperature : Double)
      (maxTokens : Option Int) (timeout : Double) : ProviderSettings :=
    ⟨kind, apiKey, model.getD kind.judgeModel, temperature, maxTokens, timeout⟩
  build <$> field v "type" (choice ("openai", .openai) ("anthropic", .anthropic)) (some .openai)
    <*> field v "api_key" text (some "")
    <*> field v "model" (optional text) (some none)
    <*> field v "temperature" (atMost 2 notNegative) (some (Double.ofRatio false 7 10))
    <*> field v "max_tokens" (optional (guarded integer (0 < ·) (.notGreater 0))) (some none)
    <*> field v "timeout" positive (some (Double.ofInt 30))

/-- An address without the slashes at its end. -/
def url (name : String) : Reader String := fun v =>
  (text v).andThen fun s =>
    if Text.startsWith "http://" s || Text.startsWith "https://" s then
      .ok (String.ofList (s.toList.reverse.dropWhile (· == '/')).reverse)
    else .refuse (.notUrl name) v

/-- An integer from zero to a limit. -/
def upTo (limit : Nat) : Reader Int := fun v =>
  (integer v).andThen fun n =>
    if limit < n then .refuse (.greater limit) v
    else if n < 0 then .refuse (.less 0) v
    else .ok n

def StoreSettings.read : Reader StoreSettings := fun v =>
  StoreSettings.mk <$> field v "server_url" (url "server_url") none
    <*> field v "auth" text (some "")
    <*> field v "prompt_id" (optional text) (some none)
    <*> field v "timeout" (atMost 120 positive) (some (Double.ofInt 10))
    <*> field v "max_retries" (upTo 10) (some 2)
    <*> field v "rate_limit" (optional (guarded integer (0 < ·) (.notGreater 0))) (some none)
    <*> field v "rate_period" positive (some (Double.ofInt 60))

def Settings.read : Reader Settings := fun v =>
  Settings.mk <$> field v "strict" truth (some false)
    <*> field v "missing_variable" (choice ("empty", .empty) ("error", .error)) (some .empty)
    <*> field v "trim" truth (some false)
    <*> field v "collapse_newlines" truth (some true)
    <*> field v "ai_provider" (optional (nested "ProviderConfig" ProviderSettings.read)) (some none)
    <*> field v "context_store" (optional (nested "ContextStoreConfig" StoreSettings.read))
      (some none)
    <*> field v "judge_cache_ttl" positive (some (Double.ofInt 300))
    <*> field v "evaluation_timeout" (optional positive) (some none)
    <*> field v "import_root" (optional path) (some none)

end Stencil
