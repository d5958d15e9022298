import Stencil.Value.Basic

/-!
Equality of values across number kinds, and mappings by key.
-/

namespace Stencil.Value

/-- The exact number that a value is, if it is one. Truth values count as zero and one. -/
def place? : Value → Option Double.Place
  | bool b => some (Double.placeOfInt (if b then 1 else 0))
  | int n => some (Double.placeOfInt n)
  | float x => x.place?
  | _ => none

mutual

/-- Equality as conditions and mappings see it: numbers by their exact value whatever their
kind, mappings without regard to order. -/
def same : Value → Value → Bool
  | null, null => true
  | text a, text b => a == b
  | bytes a, bytes b => a == b
  | date a, date b => a == b
  | moment a, moment b => a == b
  | context a, context b => a == b
  | list a, list b => sameItems a b
  | tuple a, tuple b => sameItems a b
  | dict a, dict b => a.length == b.length && sameEntries a b
  | bool a, w => (bool a).place? == w.place?
  | int a, w => (int a).place? == w.place?
  | float a, w => (float a).place?.isSome && (float a).place? == w.place?
  | _, _ => false

def sameItems : List Value → List Value → Bool
  | [], [] => true
  | a :: as, b :: bs => same a b && sameItems as bs
  | _, _ => false

/-- Every entry of the first list has an equal one in the second. -/
def sameEntries : List (Value × Value) → List (Value × Value) → Bool
  | [], _ => true
  | (k, v) :: rest, other =>
    other.any (fun e => same k e.1 && same v e.2) && sameEntries rest other

end

/-- The value under a key of a mapping's entries. -/
def entry? (key : Value) (entries : List (Value × Value)) : Option Value :=
  (entries.find? fun e => e.1.same key).map (·.2)

/-- The value under a name of a mapping's entries. -/
def named? (name : String) (entries : List (Value × Value)) : Option Value :=
  entry? (text name) entries

/-- The entries with a value put under a key: in place if the key is there, else at the end. -/
def insertEntry (key value : Value) : List (Value × Value) → List (Value × Value)
  | [] => [(key, value)]
  | (k, v) :: rest =>
    if k.same key then (k, value) :: rest else (k, v) :: insertEntry key value rest

/-- A mapping from entries in the order given; a later entry replaces an earlier one's value. -/
def dictOf (entries : List (Value × Value)) : Value :=
  .dict (entries.foldl (fun acc e => insertEntry e.1 e.2 acc) [])

/-- The value under a name of a value that is a mapping. -/
def field? (v : Value) (name : String) : Option Value :=
  match v with
  | dict entries => named? name entries
  | _ => none

end Stencil.Value

namespace Stencil.Bindings

def find? (b : Bindings) (name : String) : Option Value := List.lookup name b

/-- The bindings with a value put under a name: in place if it is bound, else at the end. -/
def insert (name : String) (value : Value) : Bindings → Bindings
  | [] => [(name, value)]
  | (k, v) :: rest => if k == name then (k, value) :: rest else (k, v) :: insert name value rest

/-- The first bindings overridden and extended by the second. -/
def merge (a b : Bindings) : Bindings := b.foldl (fun acc e => insert e.1 e.2 acc) a

end Stencil.Bindings
