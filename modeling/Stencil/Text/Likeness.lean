/-!
How much two texts are alike: the longest run that they share, the longest runs that are shared
on either side of it, and so on. The likeness of two texts is twice the number of characters in
those runs against the number of all their characters.
-/

namespace Stencil.Text

/-- The number of leading characters that two lists share. -/
def sharedLead : List Char → List Char → Nat
  | a :: as, b :: bs => if a == b then sharedLead as bs + 1 else 0
  | _, _ => 0

/-- A run that two lists share, and where it begins in either. -/
structure SharedRun where
  left : Nat
  right : Nat
  size : Nat
deriving DecidableEq

/-- The longer of two runs, the first of two that are equally long. -/
def SharedRun.longer (r s : SharedRun) : SharedRun := if r.size < s.size then s else r

/-- The runs that begin with the first character of `as`, which stands at `left`. -/
def longestAt (left : Nat) (as : List Char) : (right : Nat) → List Char → SharedRun
  | right, [] => ⟨left, right, 0⟩
  | right, b :: bs =>
    SharedRun.longer ⟨left, right, sharedLead as (b :: bs)⟩ (longestAt left as (right + 1) bs)

/-- The longest run that two lists share, the first in `as` and then in `bs` of several. -/
def longestShared (bs : List Char) : (left : Nat) → List Char → SharedRun
  | left, [] => ⟨left, 0, 0⟩
  | left, a :: as =>
    SharedRun.longer (longestAt left (a :: as) 0 bs) (longestShared bs (left + 1) as)

/-- The number of characters in runs that two lists share, of which the first has at most `fuel`
characters. -/
def sharedCount : (fuel : Nat) → List Char → List Char → Nat
  | 0, _, _ => 0
  | n + 1, as, bs =>
    let r := longestShared bs 0 as
    if r.size = 0 then 0
    else
      r.size + sharedCount n (as.take r.left) (bs.take r.right) +
        sharedCount n (as.drop (r.left + r.size)) (bs.drop (r.right + r.size))

/-- The likeness of two texts as a quotient. -/
structure Likeness where
  shared : Nat
  all : Nat

def likeness (s t : String) : Likeness :=
  ⟨2 * sharedCount s.length s.toList t.toList, s.length + t.length⟩

namespace Likeness

/-- At least three fifths. -/
def isClose (l : Likeness) : Bool := 3 * l.all ≤ 5 * l.shared

def le (l m : Likeness) : Bool := l.shared * m.all ≤ m.shared * l.all

end Likeness

/-- How many guesses are made. -/
def guessCount : Nat := 3

/-- The choices that are most like a word, in order. -/
def guesses (word : String) (choices : List String) : List String :=
  let scored := choices.filterMap fun c =>
    let l := likeness c word
    if l.isClose then some (l, c) else none
  let best := scored.mergeSort fun a b =>
    !a.1.le b.1 || (b.1.le a.1 && b.2 ≤ a.2)
  ((best.take guessCount).map (·.2)).mergeSort fun a b => a ≤ b

end Stencil.Text
