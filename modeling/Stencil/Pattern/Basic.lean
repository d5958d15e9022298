import Stencil.Text.Character
import Stencil.Text.Word
import Stencil.Text.Fold
import Stencil.Text.Case

/-!
Regular expressions as trees, every flag already resolved into the nodes that it concerns.
-/

namespace Stencil.Pattern

/-- A class of characters that an escape names. -/
inductive Category where
  | digit
  | blank
  | word
deriving DecidableEq

/-- A member of a bracketed set; characters are code points. -/
inductive Member where
  | code (n : Nat)
  | range (lo hi : Nat)
  | category (c : Category) (inside : Bool)
deriving DecidableEq

/-- What a single character is tested for. -/
inductive Test where
  | code (n : Nat)
  /-- Any character, or any but a newline. -/
  | any (newline : Bool)
  | set (inside : Bool) (members : List Member)
deriving DecidableEq

/-- How characters are compared. -/
structure Flags where
  ignoreCase : Bool := false
  multiline : Bool := false
  dotAll : Bool := false
  verbose : Bool := false
  ascii : Bool := false
deriving DecidableEq

inductive Anchor where
  | lineStart (multiline : Bool)
  | lineEnd (multiline : Bool)
  | start
  | finish
  | boundary (inside ascii : Bool)
deriving DecidableEq

/-- How often a repetition is tried first. -/
inductive Greed where
  | most
  | least
  /-- As often as possible, and nothing given back. -/
  | possessive
deriving DecidableEq

inductive Regex where
  | empty
  | char (test : Test) (flags : Flags)
  | seq (first second : Regex)
  | alt (first second : Regex)
  | anchor (a : Anchor)
  | group (number : Nat) (body : Regex)
  | back (number : Nat) (ignoreCase : Bool)
  /-- What follows, or what precedes over `width` characters, matches or does not. -/
  | look (behind : Option Nat) (positive : Bool) (body : Regex)
  | atomic (body : Regex)
  | choose (number : Nat) (set unset : Regex)
  | rep (greed : Greed) (lo : Nat) (hi : Option Nat) (body : Regex)

/-- The character with the differences of case removed; the dotted and dotless forms of `i` are
one letter. -/
def caseless (c : Char) : List Char :=
  if c.toNat == 0x130 || c.toNat == 0x131 then ['i'] else Text.foldChar c

def Category.holds (ascii : Bool) (c : Char) : Category → Bool
  | digit => if ascii then c.isDigit else Text.isDigit c
  | blank =>
    if ascii then c == ' ' || (9 ≤ c.toNat && c.toNat ≤ 13) else Text.isBlank c
  | word => if ascii then c.isAlphanum || c == '_' else Text.isWordChar c

/-- The code point and the character are the same up to case, or the same. -/
def sameCode (f : Flags) (n : Nat) (c : Char) : Bool :=
  if n == c.toNat then true
  else if !f.ignoreCase then false
  else if f.ascii then c.toNat < 128 && n < 128 && (Char.ofNat n).toLower == c.toLower
  else n.isValidChar && caseless (Char.ofNat n) == caseless c

def inRange (lo hi : Nat) (c : Char) : Bool := lo ≤ c.toNat && c.toNat ≤ hi

def Member.holds (f : Flags) (c : Char) : Member → Bool
  | code n => sameCode f n c
  | range lo hi =>
    if f.ignoreCase then
      let low := if f.ascii then c.toLower else Text.lowerChar c
      let up := if f.ascii then low.toUpper else Text.upperChar low
      inRange lo hi low || inRange lo hi up
    else inRange lo hi c
  | category k inside => k.holds f.ascii c == inside

def Test.holds (f : Flags) (c : Char) : Test → Bool
  | code n => sameCode f n c
  | any newline => newline || c != '\n'
  | set inside members => members.any (·.holds f c) == inside

/-- The least and the greatest number of characters that a match takes; no greatest one for an
unbounded repetition. -/
structure Width where
  least : Nat
  most : Option Nat
deriving DecidableEq

namespace Width

def add (a b : Width) : Width :=
  ⟨a.least + b.least, do return (← a.most) + (← b.most)⟩

def join (a b : Width) : Width :=
  ⟨min a.least b.least, do return max (← a.most) (← b.most)⟩

def times (a : Width) (lo : Nat) (hi : Option Nat) : Width :=
  ⟨a.least * lo, match a.most, hi with
    | some 0, _ => some 0
    | _, some 0 => some 0
    | some m, some h => some (m * h)
    | _, _ => none⟩

end Width

end Stencil.Pattern
