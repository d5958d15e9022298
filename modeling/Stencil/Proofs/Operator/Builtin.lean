import Stencil.Operator.Builtin
import Stencil.Proofs.Number.Order
import Stencil.Proofs.Value.Written

/-!
When the operators that every template has fail.

They answer for values of every kind, as long as these can be written in a message. Only those that
compare numbers take a value for a double, and then an integer beyond the doubles is a fault and no
infinity, as it is when it stands in a text. Arguments are never integers, and so no fault.
-/

namespace Stencil

namespace Value

/-- An integer that has no double near it. -/
def isFarOut : Value → Bool
  | int n => Double.limitInt ≤ n.natAbs
  | _ => false

lemma isFarOut_int (n : ℤ) : (int n).isFarOut = true ↔ Double.ofInt? n = none := by
  rw [isFarOut, decide_eq_true_iff, Double.ofInt?_eq_none_iff]

lemma isQuotable_texts (ss : List String) : areQuotable (ss.map text) = true := by
  induction ss with
  | nil => rfl
  | cons s ss ih =>
    rw [List.map_cons, areQuotable, ih, isQuotable.eq_def]
    rfl

end Value

namespace Argument

lemma isQuotable_value (arg : Argument) : arg.value.isQuotable = true := by
  cases arg with
  | texts ss => exact Value.isQuotable_texts ss
  | _ => rfl

lemma isFarOut_value (arg : Argument) : arg.value.isFarOut = false := by
  cases arg <;> rfl

end Argument

namespace Builtin

variable {v : Value}

/-! ### Numbers and texts -/

lemma number?_of_isFarOut (h : v.isFarOut = true) : number? v = .error .beyondDouble := by
  cases v with
  | int n => rw [number?, (Value.isFarOut_int n).mp h]
  | _ => cases h

lemma exists_number? (h : v.isFarOut = false) : ∃ x?, number? v = .ok x? := by
  cases v with
  | int n =>
    have hsome : Double.ofInt? n ≠ none := fun hnone =>
      Bool.false_ne_true (h.symm.trans ((Value.isFarOut_int n).mpr hnone))
    obtain ⟨x, hx⟩ := Option.ne_none_iff_exists'.mp hsome
    exact ⟨some x, by rw [number?, hx]⟩
  | _ => exact ⟨_, rfl⟩

lemma exists_text (h : v.isQuotable = true) : ∃ s, text v = .ok s := by
  have hshow : ∃ s, v.show = .ok s := Except.isOk_eq_true.mp ((Value.isOk_show v).trans h)
  cases v with
  | bool b => exact ⟨_, rfl⟩
  | _ => exact hshow

lemma exists_folded (h : v.isQuotable = true) : ∃ s, folded v = .ok s := by
  obtain ⟨s, hs⟩ := exists_text h
  exact ⟨Text.fold s, by rw [folded, hs]; rfl⟩

lemma exists_anyItem (needle : String) {vs : List Value} (h : Value.areQuotable vs = true) :
    ∃ b, anyItem needle vs = .ok b := by
  induction vs with
  | nil => exact ⟨false, rfl⟩
  | cons v vs ih =>
    rw [Value.areQuotable, Bool.and_eq_true] at h
    obtain ⟨s, hs⟩ := exists_folded h.1
    rw [anyItem, hs]
    change ∃ b, (if s == needle then Except.ok true else anyItem needle vs) = .ok b
    split
    · exact ⟨true, rfl⟩
    · exact ih h.2

lemma textItems_texts (ss : List String) : textItems (ss.map .text) = .ok ss := by
  induction ss with
  | nil => rfl
  | cons s ss ih =>
    rw [List.map_cons, textItems, ih]
    rfl

/-! ### Tests -/

/-- On values that can be written the test has an answer for every argument; but if it compares
numbers it fails on integers that are too far out. -/
structure Settled (comparesNumbers : Bool) (test : Value → Value → Except ValueFault Bool) :
    Prop where
  fails (v : Value) (arg : Argument) (h : (comparesNumbers && v.isFarOut) = true) :
    test v arg.value = .error .beyondDouble
  answers (v : Value) (arg : Argument) (hv : v.isQuotable = true)
    (h : (comparesNumbers && v.isFarOut) = false) : ∃ b, test v arg.value = .ok b

lemma settled_equals : Settled true equals where
  fails v arg h := by
    obtain ⟨y?, hy⟩ := exists_number? arg.isFarOut_value
    have hx := number?_of_isFarOut h
    cases v with
    | int n =>
      unfold equals
      dsimp only
      rw [hy, hx]
      rfl
    | _ => cases h
  answers v arg hv h := by
    obtain ⟨x?, hx⟩ := exists_number? h
    obtain ⟨y?, hy⟩ := exists_number? arg.isFarOut_value
    obtain ⟨s, hs⟩ := exists_text arg.isQuotable_value
    obtain ⟨t, ht⟩ := exists_folded arg.isQuotable_value
    cases v with
    | text r =>
      unfold equals
      rw [ht]
      exact ⟨_, rfl⟩
    | bool r =>
      unfold equals
      rw [hs]
      exact ⟨_, rfl⟩
    | int _ | float _ =>
      unfold equals
      dsimp only
      rw [hy, hx]
      rcases x? with _ | x <;> rcases y? with _ | y <;> exact ⟨_, rfl⟩
    | _ => exact ⟨_, rfl⟩

lemma settled_contains : Settled false contains where
  fails v arg h := nomatch h
  answers v arg hv _ := by
    obtain ⟨needle, hneedle⟩ := exists_folded arg.isQuotable_value
    rw [contains, hneedle]
    cases v with
    | list vs => exact exists_anyItem needle hv
    | tuple vs => exact exists_anyItem needle hv
    | _ => exact ⟨_, rfl⟩

lemma settled_exists : Settled false exists_ where
  fails v arg h := nomatch h
  answers v arg _ _ := by cases v <;> exact ⟨_, rfl⟩

lemma settled_numeric (compare : Double → Double → Bool) : Settled true (numeric compare) where
  fails v arg h := by
    rw [numeric, number?_of_isFarOut h]
    rfl
  answers v arg _ h := by
    obtain ⟨x?, hx⟩ := exists_number? h
    obtain ⟨y?, hy⟩ := exists_number? arg.isFarOut_value
    rw [numeric, hx, hy]
    rcases x? with _ | x <;> rcases y? with _ | y <;> exact ⟨_, rfl⟩

lemma settled_oneOf : Settled false oneOf where
  fails v arg h := nomatch h
  answers v arg hv _ := by
    obtain ⟨needle, hneedle⟩ := exists_folded hv
    -- no argument offers no options, and every other some
    have hsome (options : List String) : ∃ b, (do
        let needle ← folded v
        return options.any (Text.fold · == needle) : Except ValueFault Bool) = .ok b := by
      rw [hneedle]
      exact ⟨_, rfl⟩
    cases arg with
    | none => exact ⟨false, rfl⟩
    | text s => exact hsome ((Text.splitAt ',' s).map Text.strip)
    | texts ss =>
      unfold oneOf Argument.value
      dsimp only
      rw [textItems_texts]
      exact hsome ss

/-! ### Operators -/

/-- The operator takes integers for doubles. -/
def comparesNumbers (op : Operator) : Bool :=
  ["equals", "greater_than", "greater_than_or_equal", "less_than", "less_than_or_equal"].contains
    op.name

/-- Each of the operators but one is a settled test. -/
lemma exists_settled {name : String} {op : Operator} (hop : (name, op) ∈ operators)
    (hname : name ≠ "matches") :
    ∃ test, op.handler = handler test ∧ Settled (comparesNumbers op) test := by
  have hgreater : Settled (comparesNumbers greater) _ := settled_numeric fun a b => Double.lt b a
  have hgreaterOrEqual : Settled (comparesNumbers greaterOrEqual) _ :=
    settled_numeric fun a b => Double.le b a
  have hless : Settled (comparesNumbers less) _ := settled_numeric Double.lt
  have hlessOrEqual : Settled (comparesNumbers lessOrEqual) _ := settled_numeric Double.le
  simp only [operators, List.mem_cons, Prod.mk.injEq, List.not_mem_nil, or_false] at hop
  rcases hop with ⟨-, rfl⟩ | ⟨-, rfl⟩ | ⟨-, rfl⟩ | ⟨rfl, -⟩ | hop
  · exact ⟨equals, rfl, settled_equals⟩
  · exact ⟨contains, rfl, settled_contains⟩
  · exact ⟨exists_, rfl, settled_exists⟩
  · exact absurd rfl hname
  -- the comparisons, and the options, each under two names
  rcases hop with ⟨-, rfl⟩ | ⟨-, rfl⟩ | ⟨-, rfl⟩ | ⟨-, rfl⟩ | ⟨-, rfl⟩ | ⟨-, rfl⟩ | ⟨-, rfl⟩ |
    ⟨-, rfl⟩ | ⟨-, rfl⟩ | ⟨-, rfl⟩
  · exact ⟨_, rfl, hgreater⟩
  · exact ⟨_, rfl, hgreater⟩
  · exact ⟨_, rfl, hgreaterOrEqual⟩
  · exact ⟨_, rfl, hgreaterOrEqual⟩
  · exact ⟨_, rfl, hless⟩
  · exact ⟨_, rfl, hless⟩
  · exact ⟨_, rfl, hlessOrEqual⟩
  · exact ⟨_, rfl, hlessOrEqual⟩
  · exact ⟨oneOf, rfl, settled_oneOf⟩
  · exact ⟨oneOf, rfl, settled_oneOf⟩

end Builtin

end Stencil
