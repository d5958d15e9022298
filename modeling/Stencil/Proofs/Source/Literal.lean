import Stencil.Proofs.Source.Lexeme
import Stencil.Proofs.Source.Tokens

/-!
Literals in quotes.

Every text has a literal in quotes of either kind: backslashes, quotes of that kind and newlines
stand behind a backslash, and everything else, quotes of the other kind and brackets included,
stands for itself. A literal is read as its text wherever literals are read, whatever stands
behind it.
-/

namespace Stencil.Source

/-- The quotes around a literal. -/
inductive Quote where
  | double
  | single
deriving DecidableEq

namespace Quote

def mark : Quote → Char
  | double => '"'
  | single => '\''

/-- A character of a text as it stands in a literal. -/
def escaped (q : Quote) (c : Char) : List Char :=
  if c = '\\' ∨ c = q.mark then ['\\', c] else if c = '\n' then ['\\', 'n'] else [c]

/-- The literal of a text. -/
def literal (q : Quote) (s : String) : String :=
  String.ofList (q.mark :: (s.toList.flatMap q.escaped ++ [q.mark]))

variable (q : Quote)

lemma mark_ne_backslash : q.mark ≠ '\\' := by cases q <;> decide

/-- An escaped character is read as itself. -/
lemma literalTail_escaped (c : Char) (cs : List Char) :
    literalTail q.mark (q.escaped c ++ cs) =
      ⟨q.escaped c ++ (literalTail q.mark cs).taken, c :: (literalTail q.mark cs).value,
        (literalTail q.mark cs).closed⟩ := by
  unfold escaped
  split
  · rename_i h
    rcases h with rfl | rfl
    · rfl
    · cases q <;> rfl
  rename_i h
  obtain ⟨hbackslash, hmark⟩ := not_or.mp h
  split
  · rename_i hline
    obtain rfl := hline
    rfl
  · rename_i hline
    exact literalTail_cons hbackslash hmark hline cs

/-- A literal is read up to its closing quote, as the text that it was made from. -/
lemma literalTail_literal (cs rest : List Char) :
    literalTail q.mark (cs.flatMap q.escaped ++ [q.mark] ++ rest) =
      ⟨cs.flatMap q.escaped ++ [q.mark], cs, true⟩ := by
  induction cs with
  | nil => exact literalTail_quote q.mark_ne_backslash rest
  | cons c cs ih =>
    rw [List.flatMap_cons, List.append_assoc, List.append_assoc, literalTail_escaped,
      ← List.append_assoc, ih, List.append_assoc]

end Quote

/-! ### Characters that spell a text -/

/-- The characters are a literal that is read as the text, whatever stands behind it. -/
inductive Spells (w : List Char) (s : String) : Prop
  | mk (q : Quote) (tail : List Char) (hw : w = q.mark :: tail)
      (h : ∀ rest, literalTail q.mark (tail ++ rest) = ⟨tail, s.toList, true⟩)

lemma Quote.spells (q : Quote) (s : String) : Spells (q.literal s).toList s :=
  .mk q _ String.toList_ofList fun rest => q.literalTail_literal s.toList rest

namespace Spells

variable {w : List Char} {s : String} {m : Mode}

/-- In every mode but that of text a literal is one token. -/
lemma step (h : Spells w s) (hm : m ≠ .text) (p : Position) (rest : List Char) :
    step m ⟨p, w ++ rest⟩ =
      ⟨[⟨.string, String.ofList w, p, some s⟩], m, ⟨p.advance w, rest⟩⟩ := by
  obtain ⟨q, tail, rfl, htail⟩ := h
  have hliteral (onError : Mode) :
      literalStep ⟨p, q.mark :: (tail ++ rest)⟩ m onError q.mark (tail ++ rest) =
        ⟨[⟨.string, String.ofList (q.mark :: tail), p, some s⟩], m,
          ⟨p.advance (q.mark :: tail), rest⟩⟩ := by
    simp [literalStep, htail, Step.one, Cursor.token, Cursor.after]
  cases m with
  | text => exact absurd rfl hm
  | directive u => cases q <;> exact hliteral _
  | slot u i => cases q <;> exact hliteral _
  | quoted u i => cases q <;> exact hliteral _

lemma scan (h : Spells w s) (hm : m ≠ .text) (p : Position) (rest : List Char) :
    scan m ⟨p, w ++ rest⟩ =
      ⟨.string, String.ofList w, p, some s⟩ :: scan m ⟨p.advance w, rest⟩ := by
  refine scan_step ?_ (h.step hm p rest)
  cases m with
  | text => exact absurd rfl hm
  | _ => rfl

end Spells

end Stencil.Source
