import Stencil.Source.Tokens
import Stencil.Template.Diagnostic
import Stencil.Text.Character

/-!
Reading templates from tokens by recursive descent.

Nothing is refused: every fault is recorded and reading goes on, so that one pass finds as many
as possible. A block without its closing directive is left out of the tree with its body; stray
closing directives and unknown directives are skipped; a faulty condition drops its conditional,
while the body is still read.

Conditions, keywords in any case:

    or      := and ("OR" and)*
    and     := not ("AND" not)*
    not     := "NOT" not | primary
    primary := "(" or ")" | "true" | "false" | "#context(" path ")"
             | operand [ "#" name [ "(" arguments ")" ] ]
-/

namespace Stencil.Template

/-- The tokens still to be read, the one read last, and the faults found, the newest first. -/
structure Progress where
  previous : Token
  rest : List Token
  found : List Diagnostic

namespace Progress

/-- The token to be read next. -/
def current (p : Progress) : Token := p.rest.headD p.previous

/-- The progress behind the current token; the token at the end of the input stays. -/
def advance (p : Progress) : Progress :=
  match p.rest with
  | [] => p
  | t :: ts => if t.kind == .endOfInput then p else { p with previous := t, rest := ts }

def record (problem : Problem) (start : Position) (p : Progress) : Progress :=
  { p with found := ⟨problem, start⟩ :: p.found }

/-- Record what an error token says. -/
def recordToken (t : Token) (p : Progress) : Progress := p.record (.lexical t.text) t.start

end Progress

/-- A piece of reading that always has a result. -/
abbrev Reading := StateM Progress

/-- A piece of reading that may be given up, its fault recorded. -/
abbrev Rule := OptionT (StateM Progress)

def current : Reading Token := return (← get).current

def previous : Reading Token := return (← get).previous

/-- Read the current token. -/
def advance : Reading Token := do
  let t ← current
  modify Progress.advance
  return t

def record (problem : Problem) (start : Position) : Reading Unit := modify (·.record problem start)

def isAt (kind : TokenKind) : Reading Bool := return (← current).kind == kind

def isAtDirective (names : List String) : Reading Bool := do
  let t ← current
  return t.kind == .directive && names.contains t.text

def isKeyword (word : String) (t : Token) : Bool :=
  t.kind == .identifier && t.text.toUpper == word

def isAtKeyword (word : String) : Reading Bool := return isKeyword word (← current)

/-- Give up with a fault at a token. If that is an error token, it tells the fault itself and is
passed over. -/
def giveUp {α : Type} (problem : Problem) (t : Token) : Rule α := do
  if t.kind == .error then
    let t ← advance
    modify (·.recordToken t)
  else record problem t.start
  failure

/-- Read a token of the kind, or give up. -/
def expect (kind : TokenKind) (what : String) : Rule Token := do
  let t ← current
  if t.kind == kind then advance else giveUp (.expected what) t

/-- Pass over tokens up to and with the next of kind `goal`, recording error tokens, without
leaving the construct: text, a directive and the end stop it, and so does an error token that
says that the construct was never closed. -/
def skipTo (goal : TokenKind) : Token → List Token → List Diagnostic → Progress
  | prev, [], ds => ⟨prev, [], ds⟩
  | prev, t :: ts, ds =>
    if t.kind == goal then ⟨t, ts, ds⟩
    else if t.kind == .endOfInput || t.kind == .text || t.kind == .directive then
      ⟨prev, t :: ts, ds⟩
    else if t.kind == .error then
      let ds := ⟨.lexical t.text, t.start⟩ :: ds
      if Problem.isUnterminated t.text then ⟨t, ts, ds⟩ else skipTo goal t ts ds
    else skipTo goal t ts ds

def recover (goal : TokenKind) : Reading Unit :=
  modify fun p => skipTo goal p.previous p.rest p.found

/-- The result of a rule; if it is given up, the rest of its construct is passed over. -/
def orSkipTo {α : Type} (goal : TokenKind) (rule : Rule α) : Reading (Option α) := do
  match ← rule.run with
  | some a => return some a
  | none =>
    recover goal
    return none

/-- A directive with its closing bracket, as messages name it. -/
def describe (t : Token) : String :=
  if Text.endsWith "]" t.lexeme then t.lexeme else t.lexeme ++ "]"

/-- Pass over a directive that is not read. -/
def skipDirective : Reading Unit := do
  let t ← advance
  if !Text.endsWith "]" t.lexeme then recover .directiveClose

/-! ### Slots and context references -/

/-- The hint behind a colon, if there is a colon. An unknown hint is a fault and counts as none. -/
def hint : Rule (Option Hint) := do
  if ← isAt .colon then
    let _ ← advance
    let t ← expect .identifier "type hint after ':'"
    match Hint.ofWord? t.text.toLower with
    | some h => return some h
    | none =>
      record (.unknownHint t.text) t.start
      return none
  else return none

/-- The default behind its mark, if there is one. -/
def slotDefault : Rule (Option String) := do
  if ← isAt .defaultMark then
    let _ ← advance
    let t ← current
    if t.kind == .string || t.kind == .number || t.kind == .identifier then
      return (← advance).value
    else giveUp .noDefault t
  else return none

def slotBody (opening : Token) : Rule Node := do
  let name ← expect .identifier "variable name after '\x7b\x7b'"
  let h ← hint
  let d ← slotDefault
  let close ← expect .slotClose "'\x7d\x7d'"
  return .slot name.text h d ⟨opening.start, close.stop⟩

def slot : Reading (Option Node) := do
  let opening ← advance
  orSkipTo .slotClose (slotBody opening)

/-- Further quoted arguments, each behind a comma. -/
def moreArguments : (fuel : Nat) → Rule (List String)
  | 0 => return []
  | n + 1 => do
    if ← isAt .comma then
      let _ ← advance
      let t ← expect .string "quoted argument"
      return t.text :: (← moreArguments n)
    else return []

/-- What stands between the parentheses of an operator. -/
def enclosed : Rule Argument := do
  if ← isAt .argument then return .text (← advance).text
  else if ← isAt .string then
    let first ← advance
    match ← moreArguments (← get).rest.length with
    | [] => return .text first.text
    | more => return .texts (first.text :: more)
  else return .none

/-- The arguments in parentheses behind an operator, and the closing parenthesis. -/
def operatorArguments : Rule (Argument × Token) := do
  let _ ← advance
  let arg ← enclosed
  let close ← expect .rightParen "')'"
  return (arg, close)

/-- A parenthesis stands right behind the operator. -/
def hasArguments (operator : Token) : Reading Bool := do
  let t ← current
  return t.kind == .leftParen && t.start.offset == operator.stop.offset

def contextBody (operator : Token) : Rule (Argument × Token) := do
  if operator.text == "context" && (← hasArguments operator) then operatorArguments
  else giveUp (.strayOperator operator.lexeme) operator

/-- A context reference in plain text. -/
def contextNode : Reading (Option Node) := do
  let operator ← advance
  match ← orSkipTo .rightParen (contextBody operator) with
  | none => return none
  | some (.text path, close) =>
    if path.isEmpty then
      record .noPath operator.start
      return none
    else return some (.context path ⟨operator.start, close.stop⟩)
  | some _ =>
    record .noPath operator.start
    return none

/-! ### Conditions -/

/-- A variable in a condition and its span. -/
def operand : Rule (String × Span) := do
  let t ← current
  if t.kind == .slotOpen then
    let _ ← advance
    let name ← expect .identifier "variable name after '\x7b\x7b'"
    if ← isAt .colon then giveUp .hintInCondition (← current)
    else
      let close ← expect .slotClose "'\x7d\x7d'"
      return (name.text, ⟨t.start, close.stop⟩)
  else if t.kind == .identifier &&
      !(["AND", "OR", "NOT", "TRUE", "FALSE"].contains t.text.toUpper) then
    let _ ← advance
    return (t.text, t.span)
  else giveUp (.noOperand t.lexeme) t

/-- A context reference as a condition. -/
def contextPresence : Rule Condition := do
  let operator ← advance
  if ← hasArguments operator then
    match ← operatorArguments with
    | (.text path, close) =>
      if path.isEmpty then giveUp .noPath operator
      else return .present path ⟨operator.start, close.stop⟩
    | _ => giveUp .noPath operator
  else giveUp .noPathInCondition operator

/-- Operators that put a question to the judge. -/
def isJudgeOperator (name : String) : Bool := name == "ai_judge" || name == "ai_gate"

/-- The arguments of an operator, if it has any, and its last token. -/
def appliedTo (operator : Token) : Rule (Argument × Token) := do
  if ← hasArguments operator then operatorArguments else return (.none, operator)

/-- What an operator makes of the variable in front of it and its arguments. -/
def applied (name : String) (operator : Token) (arg : Argument) (span : Span) :
    Rule Condition := do
  let op := operator.text.toLower
  if isJudgeOperator op then
    match arg with
    | .text question =>
      if Text.allBlank question then giveUp (.noQuestion op) operator
      else return .judge name question span
    | _ => giveUp (.noQuestion op) operator
  else if op == "context" then giveUp .contextOnVariable operator
  else return .compare name op arg span

/-- An operator applied to the variable in front of it. -/
def predicate (name : String) (span : Span) : Rule Condition := do
  let operator ← advance
  let (arg, last) ← appliedTo operator
  applied name operator arg ⟨span.start, last.stop⟩

mutual

/-- A condition; `fuel` bounds the nesting. -/
def orCondition : (fuel : Nat) → Rule Condition
  | 0 => failure
  | n + 1 => do
    let start ← current
    let first ← andCondition n
    let more ← orRest n
    match more with
    | [] => return first
    | _ => return .or (first :: more) ⟨start.start, (← previous).stop⟩

def orRest : (fuel : Nat) → Rule (List Condition)
  | 0 => failure
  | n + 1 => do
    if ← isAtKeyword "OR" then
      let _ ← advance
      let c ← andCondition n
      return c :: (← orRest n)
    else return []

def andCondition : (fuel : Nat) → Rule Condition
  | 0 => failure
  | n + 1 => do
    let start ← current
    let first ← notCondition n
    let more ← andRest n
    match more with
    | [] => return first
    | _ => return .and (first :: more) ⟨start.start, (← previous).stop⟩

def andRest : (fuel : Nat) → Rule (List Condition)
  | 0 => failure
  | n + 1 => do
    if ← isAtKeyword "AND" then
      let _ ← advance
      let c ← notCondition n
      return c :: (← andRest n)
    else return []

def notCondition : (fuel : Nat) → Rule Condition
  | 0 => failure
  | n + 1 => do
    if ← isAtKeyword "NOT" then
      let start ← advance
      let c ← notCondition n
      return .not c ⟨start.start, (← previous).stop⟩
    else primary n

def primary : (fuel : Nat) → Rule Condition
  | 0 => failure
  | n + 1 => do
    let t ← current
    if t.kind == .leftParen then
      let _ ← advance
      let c ← orCondition n
      let _ ← expect .rightParen "')' to close group"
      return c
    else if isKeyword "TRUE" t || isKeyword "FALSE" t then
      let _ ← advance
      return .literal (isKeyword "TRUE" t) t.span
    else if t.kind == .operator && t.text == "context" then contextPresence
    else
      let (name, span) ← operand
      if ← isAt .operator then predicate name span else return .ref name span

end

/-- A condition and the bracket behind it. -/
def closedCondition : Rule Condition := do
  let c ← orCondition (5 * (← get).rest.length + 5)
  let _ ← expect .directiveClose "']' after condition"
  return c

/-- The condition of a directive that was just read, and its closing bracket. -/
def directiveCondition (directive : Token) : Reading (Option Condition) := do
  if ← isAt .directiveClose then
    record (.noCondition directive.lexeme) directive.start
    let _ ← advance
    return none
  else orSkipTo .directiveClose closedCondition

/-! ### Directives -/

/-- What a section may write in front of its name. -/
def nameMark (directive : Token) : Reading Unit := do
  let t ← current
  let next := ((← get).rest.drop 1).headD t
  if directive.text == "SECTION" && t.kind == .identifier && t.text == "name" &&
      next.kind == .equals then
    let _ ← advance
    let _ ← advance

/-- The name or path of a directive that was just read, and the closing bracket. -/
def directiveArgument (directive : Token) : Rule (String × Token) := do
  nameMark directive
  let t ← current
  if t.kind == .string || t.kind == .identifier then
    let _ ← advance
    let close ← expect .directiveClose "']'"
    return (t.text, close)
  else giveUp (.noName directive.lexeme) t

/-- A reference to another document or to a part. -/
def reference : Reading (Option Node) := do
  let directive ← advance
  match ← orSkipTo .directiveClose (directiveArgument directive) with
  | none => return none
  | some (path, close) =>
    let span : Span := ⟨directive.start, close.stop⟩
    return some (if directive.text == "IMPORT" then .imported path span else .included path span)

/-- The directives that end a body of the block. -/
def closers : Block → List String
  | .conditional => ["ELSE", "ELSE_IF", "END_IF"]
  | .part => ["END_SECTION"]

def isCloser (name : String) : Bool :=
  (closers .conditional).contains name || (closers .part).contains name

/-- The conditional of a branch, if all that it needs was read. -/
def conditional? (condition : Option Condition) (thenBranch : List Node)
    (elseBranch : Option (List Node)) (span : Span) : Option Node :=
  match condition, elseBranch with
  | some c, some e => if thenBranch.isEmpty then none else some (.conditional c thenBranch e span)
  | _, _ => none

mutual

/-- The nodes up to the end of the input or a directive that ends one of the `open_` blocks;
`fuel` bounds the number of nodes and their nesting. -/
def nodes : (fuel : Nat) → (open_ : List Block) → Reading (List Node)
  | 0, _ => return []
  | n + 1, open_ => do
    let t ← current
    match t.kind with
    | .endOfInput => return []
    | .text =>
      let _ ← advance
      return .text t.lexeme t.span :: (← nodes n open_)
    | .slotOpen =>
      let node ← slot
      return node.toList ++ (← nodes n open_)
    | .operator =>
      let node ← contextNode
      return node.toList ++ (← nodes n open_)
    | .error =>
      let t ← advance
      modify (·.recordToken t)
      nodes n open_
    | .directive =>
      let name := t.text
      if isCloser name then
        if open_.any fun b => (closers b).contains name then return []
        else
          record (.strayCloser (describe t)) t.start
          skipDirective
          nodes n open_
      else if name == "IF" then
        let node ← ifBlock n open_
        return node.toList ++ (← nodes n open_)
      else if name == "SECTION" then
        let node ← partBlock n open_
        return node.toList ++ (← nodes n open_)
      else if name == "IMPORT" || name == "INCLUDE" then
        let node ← reference
        return node.toList ++ (← nodes n open_)
      else
        record (.unknownDirective name) t.start
        skipDirective
        nodes n open_
    | _ =>
      record (.strayToken t.lexeme) t.start
      let _ ← advance
      nodes n open_

def partBlock : (fuel : Nat) → (open_ : List Block) → Reading (Option Node)
  | 0, _ => return none
  | n + 1, open_ => do
    let directive ← advance
    let name ← orSkipTo .directiveClose (directiveArgument directive)
    let children ← nodes n (.part :: open_)
    if ← isAtDirective ["END_SECTION"] then
      let close ← advance
      return name.map fun (name, _) => .part name children ⟨directive.start, close.stop⟩
    else
      record (.unclosed .part) directive.start
      return none

def ifBlock : (fuel : Nat) → (open_ : List Block) → Reading (Option Node)
  | 0, _ => return none
  | n + 1, open_ => do
    let directive ← current
    let node ← branch n open_
    let stray ← strayBranches n open_
    if ← isAtDirective ["END_IF"] then
      let close ← advance
      return if stray then none else node.map (·.withSpan ⟨directive.start, close.stop⟩)
    else
      record (.unclosed .conditional) directive.start
      return none

/-- A condition and its body, with the branches that follow it. -/
def branch : (fuel : Nat) → (open_ : List Block) → Reading (Option Node)
  | 0, _ => return none
  | n + 1, open_ => do
    let directive ← advance
    let condition ← directiveCondition directive
    let thenBranch ← nodes n (.conditional :: open_)
    if thenBranch.isEmpty then record (.emptyBody (describe directive)) directive.start
    let elseBranch ← otherwise n open_
    return conditional? condition thenBranch elseBranch ⟨directive.start, (← previous).stop⟩

/-- The branches behind a body, nothing when one of them is faulty. -/
def otherwise : (fuel : Nat) → (open_ : List Block) → Reading (Option (List Node))
  | 0, _ => return none
  | n + 1, open_ => do
    if ← isAtDirective ["ELSE_IF"] then
      let node ← branch n open_
      return node.map ([·])
    else if ← isAtDirective ["ELSE"] then
      let _ ← advance
      return some (← nodes n (.conditional :: open_))
    else return some []

/-- Branches behind the last one, which are faults; their bodies are read for further faults.
Whether there was one. -/
def strayBranches : (fuel : Nat) → (open_ : List Block) → Reading Bool
  | 0, _ => return false
  | n + 1, open_ => do
    if ← isAtDirective ["ELSE", "ELSE_IF"] then
      let t ← current
      record (.afterElse (describe t)) t.start
      skipDirective
      let _ ← nodes n (.conditional :: open_)
      let _ ← strayBranches n open_
      return true
    else return false

end

/-- What came of reading a source: a document of everything that could be read, and the faults
in source order. -/
structure Parsed where
  document : Document
  errors : List Diagnostic

namespace Parsed

/-- No fault was found. -/
def success (p : Parsed) : Bool := p.errors.isEmpty

end Parsed

/-- Read a document from tokens; the last one marks the end of the input. -/
def parseTokens (tokens : List Token) : Parsed :=
  let first := tokens.headD ⟨.endOfInput, "", .origin, none⟩
  let (children, p) := (nodes (4 * tokens.length + 4) []).run ⟨first, tokens, []⟩
  { document := ⟨children, ⟨first.start, p.current.stop⟩⟩
    errors := p.found.reverse.mergeSort fun a b => a.start.offset ≤ b.start.offset }

end Template

/-- Read a template. -/
def parse (source : String) : Template.Parsed := Template.parseTokens (tokenize source)

end Stencil
