import Stencil.Source.Token
import Stencil.Template.Basic
import Stencil.Text.Quoted
import Stencil.Text.Search
import Stencil.Number.Decimal

/-!
What can be wrong with a template's source, and how it is reported.
-/

namespace Stencil

inductive ProblemCode where
  | lexical
  | unterminated
  | unexpectedToken
  | unclosedBlock
  | unexpectedCloser
  | unknownDirective
  | emptyBody
  | invalidTypeHint
  | missingArgument
deriving DecidableEq, Repr

namespace ProblemCode

def word : ProblemCode → String
  | lexical => "LEXICAL"
  | unterminated => "UNTERMINATED"
  | unexpectedToken => "UNEXPECTED_TOKEN"
  | unclosedBlock => "UNCLOSED_BLOCK"
  | unexpectedCloser => "UNEXPECTED_CLOSER"
  | unknownDirective => "UNKNOWN_DIRECTIVE"
  | emptyBody => "EMPTY_BODY"
  | invalidTypeHint => "INVALID_TYPE_HINT"
  | missingArgument => "MISSING_ARGUMENT"

end ProblemCode

/-- A block that has an opening and a closing directive. -/
inductive Block where
  | conditional
  | part
deriving DecidableEq, Repr

namespace Block

def opener : Block → String
  | conditional => "[#IF]"
  | part => "[#SECTION]"

def closer : Block → String
  | conditional => "[END IF]"
  | part => "[END SECTION]"

end Block

/-- A fault in a source. -/
inductive Problem where
  /-- What an error token says. -/
  | lexical (description : String)
  /-- Something else was needed here. -/
  | expected (what : String)
  /-- A token that belongs to no construct. -/
  | strayToken (lexeme : String)
  /-- An operator in plain text that is no context reference. -/
  | strayOperator (lexeme : String)
  /-- What a condition starts with is missing. -/
  | noOperand (lexeme : String)
  | hintInCondition
  | contextOnVariable
  | unclosed (block : Block)
  /-- A closing directive that no open block has. -/
  | strayCloser (directive : String)
  /-- A further branch behind the last one. -/
  | afterElse (directive : String)
  | unknownDirective (name : String)
  | emptyBody (directive : String)
  | unknownHint (word : String)
  | noDefault
  | noPath
  | noPathInCondition
  | noName (directive : String)
  | noCondition (directive : String)
  | noQuestion (operator : String)
deriving DecidableEq, Repr

namespace Problem

def isUnterminated (description : String) : Bool := Text.startsWith "Unterminated" description

def code : Problem → ProblemCode
  | lexical d => if isUnterminated d then .unterminated else .lexical
  | expected _ | strayToken _ | strayOperator _ | noOperand _ | hintInCondition
  | contextOnVariable => .unexpectedToken
  | unclosed _ => .unclosedBlock
  | strayCloser _ | afterElse _ => .unexpectedCloser
  | unknownDirective _ => .unknownDirective
  | emptyBody _ => .emptyBody
  | unknownHint _ => .invalidTypeHint
  | noDefault | noPath | noPathInCondition | noName _ | noCondition _ | noQuestion _ =>
    .missingArgument

def message : Problem → String
  | lexical d => d
  | expected what => "Expected " ++ what
  | strayToken lexeme => "Unexpected " ++ Text.quoted lexeme
  | strayOperator lexeme => "Unexpected operator " ++ Text.quoted lexeme ++ " outside a condition"
  | noOperand lexeme =>
    "Expected a variable, 'true', 'false' or '(' but found " ++ Text.quoted lexeme
  | hintInCondition => "Type hints are not allowed in conditions"
  | contextOnVariable => "#context(...) cannot be applied to a variable"
  | unclosed b => b.opener ++ " is missing " ++ b.closer
  | strayCloser d => "Unexpected " ++ d ++ " without a matching opener"
  | afterElse d => "Unexpected " ++ d ++ " after [ELSE]"
  | unknownDirective name => "Unknown directive [#" ++ name ++ "]"
  | emptyBody d => d ++ " block has an empty body"
  | unknownHint w =>
    "Unknown type hint " ++ Text.quoted w ++ "; expected one of " ++
      ", ".intercalate (Hint.all.map (·.word))
  | noDefault => "Expected default value after '??'"
  | noPath => "#context() requires a path"
  | noPathInCondition => "#context requires a path: #context(path)"
  | noName d => d ++ "] requires a name or path"
  | noCondition d => d ++ "] requires a condition"
  | noQuestion op => "#" ++ op ++ " requires a question"

end Problem

/-- A fault and where it starts. -/
structure Diagnostic where
  problem : Problem
  start : Position
deriving DecidableEq, Repr

/-- Line and column, then the message. -/
def located (p : Position) (message : String) : String :=
  Number.natText p.line ++ ":" ++ Number.natText p.column ++ ": " ++ message

namespace Diagnostic

def message (d : Diagnostic) : String := d.problem.message

def text (d : Diagnostic) : String := located d.start d.message

/-- The diagnostic as a user reads it, with the display line it names, if the source has that
many, and a caret under the column. -/
def report (lines : List String) (d : Diagnostic) : List String :=
  let head := "Line " ++ Number.natText d.start.line ++ ", column " ++
    Number.natText d.start.column ++ ": " ++ d.message
  match lines[d.start.line - 1]? with
  | some line =>
    if 0 < d.start.line then
      [head, "    " ++ line,
        "    " ++ String.ofList (List.replicate (d.start.column - 1) ' ') ++ "^"]
    else [head]
  | none => [head]

/-- The report of all diagnostics of a source. -/
def reportAll (ds : List Diagnostic) (source : String) : String :=
  "\n".intercalate (ds.flatMap (report (Text.displayLines source)))

end Diagnostic

end Stencil
