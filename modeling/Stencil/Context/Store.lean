import Stencil.Context.Resolve
import Stencil.Settings.Basic
import Stencil.Text.Quoted

/-!
Context references looked up in a store that is asked over the network. Each asset is one
request, all names of a batch are one. Requests that fail in passing are repeated a number of
times.
-/

namespace Stencil.Context

/-- What is asked of a store. -/
structure StoreRequest where
  url : String
  /-- The names that are asked for, where there are any. -/
  names : Option (List String) := none
deriving DecidableEq

/-- What comes back for a request. -/
inductive StoreReply where
  /-- A status, the body as JSON or why it is none, and the body as text. -/
  | answer (status : Int) (json : Except String Value) (text : String)
  | timedOut
  /-- The connection failed. -/
  | broken (message : String)

/-- A store as a client sees it. -/
structure Store (σ : Type) where
  settings : StoreSettings
  /-- How many requests may be sent in a period. -/
  limit : Option Int := settings.rateLimit
  send : StoreRequest → StateM σ StoreReply

/-- Content as a store sends it. What it calls a text may be any value. -/
structure StoreContent where
  mimeType : String
  text : Option Value
  dataUrl : Option Value

namespace StoreContent

/-- What a prompt shows of the content. -/
def shown (c : StoreContent) : Value :=
  match c.text with
  | some v => v
  | none => c.dataUrl.getD (.text "")

def standardType : String := "application/octet-stream"

/-- The value under a name that counts: one that is neither absent nor empty. -/
def filled? (name : String) (entries : List (Value × Value)) : Option Value :=
  (Value.named? name entries).filter Value.truthy

/-- The content in a mapping. -/
def ofEntries (entries : List (Value × Value)) : StoreContent where
  mimeType :=
    match filled? "mimeType" entries with
    | some v => (v.show).toOption.getD standardType
    | none => standardType
  text := filled? "text" entries
  dataUrl := filled? "dataUrl" entries

/-- The content with the texts of its values. -/
def content (c : StoreContent) : Content :=
  ⟨c.mimeType, c.text.bind fun v => (v.show).toOption, c.dataUrl.bind fun v => (v.show).toOption⟩

end StoreContent

/-- What comes of a reference. -/
inductive StoreResult where
  | found (c : StoreContent)
  | failed (reason : Reason) (message : String)

/-- The result for a path. -/
def StoreResult.result (path : String) : StoreResult → Result
  | found c => .ok path c.content
  | failed reason message => .failed path reason message

/-- How far a request has come. -/
inductive Attempt where
  | done (payload : Value)
  | refused (reason : Reason) (message : String)
  /-- It may be repeated. -/
  | passing (message : String)
  /-- It could not even be sent. -/
  | unsent (f : Failure)

namespace Attempt

/-- What a reply to a request means. -/
def ofReply (url : String) : StoreReply → Attempt
  | .timedOut => passing "Request timed out"
  | .broken message => passing ("Client error: " ++ message)
  | .answer status json text =>
    let shown := "HTTP " ++ Number.intText status ++ ": " ++ text
    if status = 200 then
      match json with
      | .ok v => done v
      | .error message => passing ("Malformed JSON response: " ++ message)
    else if status = 404 then refused .notFound ("Not found: " ++ url)
    else if status = 401 ∨ status = 403 then
      refused .unauthorized ("Unauthorized (HTTP " ++ Number.intText status ++ ")")
    else if status = 429 ∨ 500 ≤ status then passing shown
    else refused .unavailable shown

/-- Nothing was sent yet. -/
def none : Attempt := passing "No request attempts were made"

end Attempt

namespace Store

variable {σ : Type} (s : Store σ)

/-- What goes with each request. -/
def headers : List (String × String) :=
  [("Authorization", "Bearer " ++ s.settings.auth), ("Accept", "application/json")]

/-- No request can be sent at all. -/
def isClosed : Bool :=
  match s.limit with
  | some n => n < 1
  | none => false

def attempt (r : StoreRequest) : StateM σ Attempt := do
  if s.isClosed then
    return .unsent (.foreign "ValueError" "Can't acquire more than the maximum capacity")
  else return .ofReply r.url (← s.send r)

/-- Send a request again if it may be repeated. -/
def retry (p : StoreRequest × Attempt) : StateM σ (StoreRequest × Attempt) := do
  match p.2 with
  | .passing _ => return (p.1, ← s.attempt p.1)
  | _ => return p

/-- Send requests in rounds, each of those that may be repeated once in a round. -/
def rounds : (n : Nat) → List (StoreRequest × Attempt) → StateM σ (List (StoreRequest × Attempt))
  | 0, ps => pure ps
  | n + 1, ps => do rounds n (← ps.mapM s.retry)

/-- Send requests, each as often as the settings allow. -/
def sendAll (rs : List StoreRequest) : StateM σ (List Attempt) := do
  let ps ← s.rounds (s.settings.maxRetries + 1).toNat (rs.map fun r => (r, .none))
  return ps.map (·.2)

/-- What comes of an attempt whose payload is a mapping. -/
def settle {α : Type} (malformed : String) (a : Attempt)
    (found : List (Value × Value) → α) (failed : Reason → String → α) : Except Failure α :=
  match a with
  | .done (.dict entries) => .ok (found entries)
  | .done _ => .ok (failed .unavailable malformed)
  | .refused reason message => .ok (failed reason message)
  | .passing message => .ok (failed .unavailable message)
  | .unsent f => .error f

def assetUrl (path : String) : String :=
  s.settings.serverUrl ++ "/api/v1/context-store/" ++ Text.percentEncoded (assetId path)

def namesUrl (prompt : String) : String :=
  s.settings.serverUrl ++ "/api/v1/prompts/" ++ Text.percentEncoded prompt ++ "/context/_resolve"

/-- What comes of assets. -/
def assets (paths : List String) : StateM σ (Except Failure (List (String × StoreResult))) := do
  let attempts ← s.sendAll (paths.map fun p => { url := s.assetUrl p })
  return (paths.zip attempts).mapM fun (p, a) =>
    (p, ·) <$> settle "Malformed asset response" a (fun es => .found (.ofEntries es)) .failed

/-- The result of a name among the entries that came back. -/
def named (entries : List (Value × Value)) (name : String) : StoreResult :=
  match Value.named? name entries with
  | some (.dict inner) => .found (.ofEntries inner)
  | _ => .failed .notFound ("Context not found: " ++ name)

/-- The message about a name for a store that knows no prompt. -/
def promptless (name : String) : String :=
  "Context name \"" ++ name ++ "\" requires a prompt_id to resolve. " ++
    "Use the plp:// prefix for direct asset references."

/-- What comes of names: they belong to a prompt. -/
def names (ns : List String) : StateM σ (Except Failure (List (String × StoreResult))) := do
  match s.settings.promptId.filter (· != "") with
  | none => return .ok (ns.map fun n => (n, .failed .unavailable (promptless n)))
  | some prompt =>
    let attempts ← s.sendAll [{ url := s.namesUrl prompt, names := some ns }]
    return settle "Malformed context response" (attempts.headD .none)
      (fun es => ns.map fun n => (n, named es n))
      (fun reason message => ns.map fun n => (n, .failed reason message))

/-- Look up the distinct paths among some: unusable ones without asking, then assets, then
names. -/
def resolveBatch (paths : List String) :
    StateM σ (Except Failure (List (String × StoreResult))) := do
  let paths := Node.distinct paths
  let invalid := paths.filterMap fun p =>
    (pathFault? p).map fun f => (p, StoreResult.failed .invalidPath f.message)
  let valid := paths.filter isValid
  match ← s.assets (valid.filter isAsset) with
  | .error f => return .error f
  | .ok assets =>
    match valid.filter (!isAsset ·) with
    | [] => return .ok (invalid ++ assets)
    | ns => return (← s.names ns).map fun named => invalid ++ assets ++ named

/-- Look up one path. -/
def resolve (path : String) : StateM σ (Except Failure StoreResult) := do
  return (← s.resolveBatch [path]).map fun rs =>
    (rs.lookup path).getD (.failed .unavailable "")

/-- The store as a resolver. -/
def resolver : Resolver σ where
  resolveBatch paths := do
    return (← s.resolveBatch paths).map fun rs => rs.map fun (p, r) => (p, r.result p)

end Store

end Stencil.Context
