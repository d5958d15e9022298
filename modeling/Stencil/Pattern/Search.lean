import Stencil.Pattern.Basic

/-!
Looking for a match of a regular expression in a text, by trying alternatives in order and
coming back to the last one that is left.
-/

namespace Stencil.Pattern

/-- A place in the text and what the groups have matched, the latest first. -/
structure Spot where
  place : Nat
  groups : List (Nat × Nat × Nat)

namespace Spot

/-- Where the group's last match starts and ends. -/
def group? (s : Spot) (number : Nat) : Option (Nat × Nat) := s.groups.lookup number

end Spot

def isWordAt (t : Array Char) (ascii : Bool) (i : Nat) : Bool :=
  match t[i]? with
  | some c => Category.word.holds ascii c
  | none => false

def Anchor.holds (t : Array Char) (i : Nat) : Anchor → Bool
  | lineStart multiline => i == 0 || (multiline && t[i - 1]? == some '\n')
  | lineEnd multiline =>
    i == t.size || (t[i]? == some '\n' && (multiline || i + 1 == t.size))
  | start => i == 0
  | finish => i == t.size
  | boundary inside ascii =>
    let before := 0 < i && isWordAt t ascii (i - 1)
    let behind := isWordAt t ascii i
    (before != behind) == inside && (inside || 0 < t.size)

/-- The characters from `start` to `stop` stand at `i` too. -/
def sameStretch (t : Array Char) (ignoreCase : Bool) (start stop i : Nat) : Bool :=
  i + (stop - start) ≤ t.size &&
    (List.range (stop - start)).all fun k =>
      match t[start + k]?, t[i + k]? with
      | some a, some b => a == b || (ignoreCase && caseless a == caseless b)
      | _, _ => false

/-- Try a body again and again. A round that takes no character is not followed by another. -/
def rounds (body : (Spot → Option Spot) → Spot → Option Spot) (greedy : Bool) (lo : Nat)
    (hi : Option Nat) (next : Spot → Option Spot) :
    (fuel done : Nat) → (last : Option Nat) → Spot → Option Spot
  | 0, _, _, _ => none
  | n + 1, done, last, s =>
    if done < lo then body (rounds body greedy lo hi next n (done + 1) last) s
    else
      let more := last != some s.place && hi.all (done < ·)
      let again (_ : Unit) :=
        if more then body (rounds body greedy lo hi next n (done + 1) (some s.place)) s else none
      if greedy then
        match again () with
        | some r => some r
        | none => next s
      else
        match next s with
        | some r => some r
        | none => again ()

/-- The first way to match the regular expression at a spot after which `next` succeeds. -/
def run (t : Array Char) : Regex → (Spot → Option Spot) → Spot → Option Spot
  | .empty, next, s => next s
  | .char test flags, next, s =>
    match t[s.place]? with
    | some c => if test.holds flags c then next { s with place := s.place + 1 } else none
    | none => none
  | .seq a b, next, s => run t a (run t b next) s
  | .alt a b, next, s =>
    match run t a next s with
    | some r => some r
    | none => run t b next s
  | .anchor a, next, s => if a.holds t s.place then next s else none
  | .group number body, next, s =>
    run t body (fun s' => next { s' with groups := (number, s.place, s'.place) :: s'.groups }) s
  | .back number ignoreCase, next, s =>
    match s.group? number with
    | some (a, b) =>
      if sameStretch t ignoreCase a b s.place then next { s with place := s.place + (b - a) }
      else none
    | none => none
  | .look behind positive body, next, s =>
    let found := match behind with
      | none => run t body some s
      | some w => if w ≤ s.place then run t body some { s with place := s.place - w } else none
    match found, positive with
    | some s', true => next { s' with place := s.place }
    | none, false => next s
    | _, _ => none
  | .atomic body, next, s =>
    match run t body some s with
    | some s' => next s'
    | none => none
  | .choose number yes no, next, s =>
    match s.group? number with
    | some _ => run t yes next s
    | none => run t no next s
  | .rep greed lo hi body, next, s =>
    let fuel := lo + 2 * (t.size - s.place) + 3
    match greed with
    | .possessive =>
      let once (next : Spot → Option Spot) (s : Spot) := (run t body some s).bind next
      (rounds once true lo hi some fuel 0 none s).bind next
    | _ => rounds (run t body) (greed == .most) lo hi next fuel 0 none s

/-- Some place of the text has a match. -/
def Regex.foundIn (r : Regex) (s : String) : Bool :=
  let t := s.toList.toArray
  (List.range (t.size + 1)).any fun i => (run t r some ⟨i, []⟩).isSome

end Stencil.Pattern
