import Stencil.Settings.Basic

/-!
Settings as mappings; what is not set is null.
-/

namespace Stencil

def orNull {α : Type} (f : α → Value) : Option α → Value
  | none => .null
  | some a => f a

def ProviderSettings.toValue (s : ProviderSettings) : Value :=
  .ofBindings [("type", .text s.kind.word), ("api_key", .text s.apiKey), ("model", .text s.model),
    ("temperature", .float s.temperature), ("max_tokens", orNull .int s.maxTokens),
    ("timeout", .float s.timeout)]

def StoreSettings.toValue (s : StoreSettings) : Value :=
  .ofBindings [("server_url", .text s.serverUrl), ("auth", .text s.auth),
    ("prompt_id", .ofOptText s.promptId), ("timeout", .float s.timeout),
    ("max_retries", .int s.maxRetries), ("rate_limit", orNull .int s.rateLimit),
    ("rate_period", .float s.ratePeriod)]

def Settings.toValue (s : Settings) : Value :=
  .ofBindings [("strict", .bool s.strict), ("missing_variable", .text s.missingVariable.word),
    ("trim", .bool s.trim), ("collapse_newlines", .bool s.collapseNewlines),
    ("ai_provider", orNull ProviderSettings.toValue s.provider),
    ("context_store", orNull StoreSettings.toValue s.contextStore),
    ("judge_cache_ttl", .float s.judgeCacheTtl),
    ("evaluation_timeout", orNull .float s.evaluationTimeout),
    ("import_root", .ofOptText s.importRoot)]

end Stencil
