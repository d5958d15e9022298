/-!
The outcome of looking up a context reference: its content, or why there is none.
-/

namespace Stencil.Context

/-- Why a context reference has no content. -/
inductive Reason where
  | notFound
  | invalidPath
  | unauthorized
  | unavailable
deriving DecidableEq

namespace Reason

/-- The word that stands for the failure in reports. -/
def word : Reason → String
  | notFound => "not_found"
  | invalidPath => "invalid_path"
  | unauthorized => "unauthorized"
  | unavailable => "unavailable"

def all : List Reason := [notFound, invalidPath, unauthorized, unavailable]

def ofWord? (w : String) : Option Reason := all.find? (·.word == w)

end Reason

/-- Content behind a context reference: inline text, or a data address for binary content. -/
structure Content where
  mimeType : String := "text/plain"
  text : Option String := none
  dataUrl : Option String := none
deriving DecidableEq

namespace Content

/-- What a prompt shows of the content: the text itself, else the data address. -/
def asText (c : Content) : String :=
  match c.text with
  | some t => t
  | none => c.dataUrl.getD ""

end Content

/-- The outcome for one path. -/
structure Result where
  path : String
  content : Option Content := none
  failure : Option Reason := none
  error : Option String := none
deriving DecidableEq

namespace Result

/-- There is content and no failure. -/
def success (r : Result) : Bool := r.failure.isNone && r.content.isSome

def ok (path : String) (content : Content) : Result := { path, content := some content }

def failed (path : String) (failure : Reason) (error : String) : Result :=
  { path, failure := some failure, error := some error }

end Result

end Stencil.Context
