import Mathlib.Data.List.Basic
import Mathlib.Tactic.IntervalCases
import Stencil.Proofs.Files.Tree
import Stencil.Proofs.Value.Written
import Stencil.Yaml.Write

/-!
The line ends of written YAML.

What is written holds no carriage return: a text's own is written by its number, and everything
else is made of digits, words and marks (`noReturn_write`). So reading a file, which unifies line
ends, leaves written YAML as it is (`unifyLines_write`).
-/

namespace Stencil

open Number

/-! ### Numbers and dates -/

lemma noReturn_toDigits (n : Nat) : NoReturn (Nat.toDigits 10 n) := fun h => by
  have := Nat.isDigit_of_mem_toDigits (by decide) (by decide) h
  cases this

lemma noReturn_paddedText (width n : Nat) : NoReturn (paddedText width n).toList := by
  rw [paddedText, String.toList_ofList]
  exact (NoReturn.replicate (by decide) _).append (noReturn_toDigits n)

lemma noReturn_intText (n : Int) : NoReturn (intText n).toList := by
  have hdigits : NoReturn (natText n.natAbs).toList := by
    rw [natText, String.toList_ofList]
    exact noReturn_toDigits n.natAbs
  unfold intText
  split
  · exact .string (by decide) hdigits
  · exact hdigits

lemma noReturn_positional {ds : List Char} (h : NoReturn ds) (place : Int) :
    NoReturn (positional ds place) := by
  have hzeros (n : Nat) : NoReturn (List.replicate n '0') := .replicate (by decide) n
  unfold positional
  dsimp only
  split
  · exact (NoReturn.cons (by decide) (.cons (by decide) (hzeros _))).append h
  · split
    · exact (h.append (hzeros _)).append (by decide)
    · exact (h.sublist (List.take_sublist _ _)).append
        (.cons (by decide) (h.sublist (List.drop_sublist _ _)))

lemma noReturn_scientific {ds : List Char} (h : NoReturn ds) (width : Nat) (place : Int) :
    NoReturn (scientific width ds place) := by
  have hexponent : NoReturn ('e' :: (if place - 1 < 0 then '-' else '+') ::
      (paddedText width (place - 1).natAbs).toList) := by
    refine .cons (by decide) (.cons ?_ (noReturn_paddedText _ _))
    split <;> decide
  rcases ds with _ | ⟨d, _ | ⟨c, cs⟩⟩
  · exact hexponent
  · exact h.append hexponent
  · have hd : d ≠ '\r' := fun he => h (he ▸ List.mem_cons_self)
    exact (NoReturn.cons hd (.cons (by decide) (h.sublist (List.sublist_cons_self _ _)))).append
      hexponent

lemma noReturn_decimalText (style : Style) (d : Decimal) : NoReturn (decimalText style d) := by
  have hdigits : NoReturn ((Nat.toDigits 10 d.digits).reverse.dropWhile (· == '0')).reverse := by
    intro h
    have hall := (List.dropWhile_sublist _).subset (List.mem_reverse.mp h)
    exact noReturn_toDigits d.digits (List.mem_reverse.mp hall)
  unfold decimalText
  dsimp only
  split
  · exact noReturn_positional hdigits _
  · exact noReturn_scientific hdigits _ _

lemma noReturn_doubleText (x : Double) : NoReturn (Number.doubleText x).toList := by
  cases x with
  | nan => decide
  | infinite s => cases s <;> decide
  | finite s m e h =>
    have hbody : NoReturn
        (if m = 0 then ['0', '.', '0'] else decimalText plain (shortestDecimal m e)) := by
      split
      · decide
      · exact noReturn_decimalText _ _
    rw [Number.doubleText, doubleTextIn, String.toList_ofList]
    cases s with
    | false => exact hbody
    | true => exact .cons (by decide) hbody

lemma noReturn_date (d : Date) : NoReturn d.text.toList := by
  have hmark : NoReturn "-".toList := by decide
  exact .string (.string (.string (.string (noReturn_paddedText _ _) hmark)
    (noReturn_paddedText _ _)) hmark) (noReturn_paddedText _ _)

lemma noReturn_offsetText (seconds : Int) : NoReturn (Moment.offsetText seconds).toList := by
  have hmark : NoReturn ":".toList := by decide
  have hsign : NoReturn (if seconds < 0 then "-" else "+").toList := by split <;> decide
  have htail (n : Nat) :
      NoReturn (if n % 60 == 0 then "" else ":" ++ paddedText 2 (n % 60)).toList := by
    split
    · decide
    · exact .string hmark (noReturn_paddedText _ _)
  exact .string (.string (.string (.string hsign (noReturn_paddedText _ _)) hmark)
    (noReturn_paddedText _ _)) (htail _)

lemma noReturn_moment (m : Moment) : NoReturn m.text.toList := by
  have hmark : NoReturn ":".toList := by decide
  have hfraction : NoReturn
      (if m.microsecond == 0 then "" else "." ++ paddedText 6 m.microsecond).toList := by
    split
    · decide
    · exact .string (by decide) (noReturn_paddedText _ _)
  refine .string (.string (.string (.string (.string (.string (.string (.string ?_ ?_)
    (noReturn_paddedText _ _)) hmark) (noReturn_paddedText _ _)) hmark) (noReturn_paddedText _ _))
    hfraction) ?_
  · exact noReturn_date m.date
  · decide
  · cases m.offset with
    | none => decide
    | some s => exact noReturn_offsetText s

/-! ### Texts and bytes -/

lemma noReturn_hexDigits (width n : Nat) : NoReturn (Text.hexDigits width n) := by
  induction width generalizing n with
  | zero => exact nofun
  | succ w ih =>
    have hdigit : ∀ k < 16, NoReturn [Text.hexDigit k] := by decide
    exact (ih (n / 16)).append (hdigit _ (Nat.mod_lt n (by decide)))

namespace Yaml

lemma noReturn_quotedChar (c : Char) : NoReturn (quotedChar c) := by
  unfold quotedChar
  dsimp only
  split_ifs with hquote hplain
  · have hc : c ≠ '\r' := by
      rintro rfl
      exact absurd hquote (by decide)
    exact .cons (by decide) (.cons hc nofun)
  · have hc : c ≠ '\r' := by
      rintro rfl
      exact absurd hplain (by decide)
    exact .cons hc nofun
  all_goals exact .cons (by decide) (.cons (by decide) (noReturn_hexDigits _ _))

lemma noReturn_quotedText (s : String) : NoReturn (quotedText s).toList := by
  rw [quotedText, String.toList_ofList]
  exact (NoReturn.cons (by decide) (.flatMap fun c _ => noReturn_quotedChar c)).append (by decide)

lemma base64Digit_ne (n : Nat) : base64Digit n ≠ '\r' := by
  have hsmall : ∀ k < 62, base64Digit k ≠ '\r' := by decide
  by_cases hn : n < 62
  · exact hsmall n hn
  · unfold base64Digit
    rw [if_neg (by omega), if_neg (by omega), if_neg hn]
    split <;> decide

lemma noReturn_base64 (bs : List UInt8) : NoReturn (base64 bs) := by
  fun_induction base64 bs with
  | case1 => exact nofun
  | case2 => exact .cons (base64Digit_ne _) (.cons (base64Digit_ne _) (by decide))
  | case3 =>
    exact .cons (base64Digit_ne _) (.cons (base64Digit_ne _) (.cons (base64Digit_ne _) (by decide)))
  | case4 a b c rest n ih =>
    exact .cons (base64Digit_ne _) (.cons (base64Digit_ne _) (.cons (base64Digit_ne _)
      (.cons (base64Digit_ne _) ih)))

lemma noReturn_doubleText (x : Double) : NoReturn (doubleText x).toList := by
  have hpointed (s : String) (h : NoReturn s.toList) : NoReturn (pointed s).toList := by
    unfold pointed
    dsimp only
    split
    · exact h
    · rw [String.toList_ofList]
      exact ((h.sublist (List.takeWhile_sublist _)).append (by decide)).append
        (h.sublist (List.dropWhile_sublist _))
  cases x with
  | nan => decide
  | infinite s => cases s <;> decide
  | finite => exact hpointed _ (Stencil.noReturn_doubleText _)

/-! ### Values -/

lemma noReturn_keyed {written between : String} (hwritten : NoReturn written.toList) (key : Value)
    (hbetween : NoReturn between.toList) : NoReturn (keyed written key between).toList := by
  unfold keyed
  split
  · exact .string hwritten (by decide)
  · exact .string (.string (.string (by decide) hwritten) hbetween) (by decide)

mutual

lemma noReturn_writeFlow : ∀ (v : Value) {s : String}, writeFlow v = .ok s → NoReturn s.toList
  | .null => fun h => by
    obtain rfl := Except.ok.inj h
    decide
  | .bool b => fun h => by
    obtain rfl := Except.ok.inj h
    cases b <;> decide
  | .int n => fun h => by
    obtain ⟨-, rfl⟩ := Value.showInt_eq_ok h
    exact noReturn_intText n
  | .float x => fun h => by
    obtain rfl := Except.ok.inj h
    exact noReturn_doubleText x
  | .text t => fun h => by
    obtain rfl := Except.ok.inj h
    exact noReturn_quotedText _
  | .bytes bs => fun h => by
    obtain rfl := Except.ok.inj h
    rw [String.append_assoc]
    refine .string (by decide) (.string ?_ (by decide))
    rw [String.toList_ofList]
    exact noReturn_base64 bs
  | .date d => fun h => by
    obtain rfl := Except.ok.inj h
    exact noReturn_date d
  | .moment m => fun h => by
    obtain rfl := Except.ok.inj h
    exact noReturn_moment m
  | .list vs => fun h => by
    obtain ⟨ts, hts, h⟩ := Except.bind_eq_ok.mp h
    obtain rfl := Except.ok.inj h
    exact .string (.string (by decide) (.intercalate (by decide) (noReturn_writeItems vs hts)))
      (by decide)
  | .tuple vs => fun h => by
    obtain ⟨ts, hts, h⟩ := Except.bind_eq_ok.mp h
    obtain rfl := Except.ok.inj h
    exact .string (.string (by decide) (.intercalate (by decide) (noReturn_writeItems vs hts)))
      (by decide)
  | .dict es => fun h => by
    obtain ⟨ts, hts, h⟩ := Except.bind_eq_ok.mp h
    obtain rfl := Except.ok.inj h
    exact .string (.string (by decide) (.intercalate (by decide) (noReturn_writeEntries es hts)))
      (by decide)
  | .context r => fun h => by cases h

lemma noReturn_writeItems : ∀ (vs : List Value) {ts : List String}, writeItems vs = .ok ts →
    ∀ t ∈ ts, NoReturn t.toList
  | [] => fun h => by
    obtain rfl := Except.ok.inj h
    exact nofun
  | v :: vs => fun h => by
    obtain ⟨t, ht, h⟩ := Except.bind_eq_ok.mp h
    obtain ⟨us, hus, h⟩ := Except.bind_eq_ok.mp h
    obtain rfl := Except.ok.inj h
    exact List.forall_mem_cons.mpr ⟨noReturn_writeFlow v ht, noReturn_writeItems vs hus⟩

lemma noReturn_writeEntries : ∀ (es : List (Value × Value)) {ts : List String},
    writeEntries es = .ok ts → ∀ t ∈ ts, NoReturn t.toList
  | [] => fun h => by
    obtain rfl := Except.ok.inj h
    exact nofun
  | (k, v) :: es => fun h => by
    obtain ⟨key, hkey, h⟩ := Except.bind_eq_ok.mp h
    obtain ⟨t, ht, h⟩ := Except.bind_eq_ok.mp h
    obtain ⟨us, hus, h⟩ := Except.bind_eq_ok.mp h
    obtain rfl := Except.ok.inj h
    refine List.forall_mem_cons.mpr ⟨?_, noReturn_writeEntries es hus⟩
    exact .string (.string (noReturn_keyed (noReturn_writeFlow k hkey) k (by decide)) (by decide))
      (noReturn_writeFlow v ht)

end

lemma noReturn_writeLines {e : Value × Value} {s : String} (h : writeLines e = .ok s) :
    NoReturn s.toList := by
  obtain ⟨k, v⟩ := e
  obtain ⟨key, hkey, h⟩ := Except.bind_eq_ok.mp h
  have hlead := noReturn_keyed (noReturn_writeFlow k hkey) k (show NoReturn "\n".toList by decide)
  dsimp only at h
  split at h
  · rename_i v vs
    obtain ⟨ts, hts, h⟩ := Except.bind_eq_ok.mp h
    obtain rfl := Except.ok.inj h
    refine .string (.string hlead (by decide)) (.join fun t ht => ?_)
    obtain ⟨u, hu, rfl⟩ := List.mem_map.mp ht
    exact .string (.string (by decide) (noReturn_writeItems _ hts u hu)) (by decide)
  · obtain ⟨t, ht, h⟩ := Except.bind_eq_ok.mp h
    obtain rfl := Except.ok.inj h
    exact .string (.string (.string hlead (by decide)) (noReturn_writeFlow _ ht)) (by decide)

lemma noReturn_writeBlock {es : List (Value × Value)} {s : String} (h : writeBlock es = .ok s) :
    NoReturn s.toList := by
  induction es generalizing s with
  | nil =>
    obtain rfl := Except.ok.inj h
    decide
  | cons e es ih =>
    obtain ⟨t, ht, h⟩ := Except.bind_eq_ok.mp h
    obtain ⟨u, hu, h⟩ := Except.bind_eq_ok.mp h
    obtain rfl := Except.ok.inj h
    exact .string (noReturn_writeLines ht) (ih hu)

lemma noReturn_write {v : Value} {s : String} (h : write v = .ok s) : NoReturn s.toList := by
  unfold write at h
  split at h
  · exact noReturn_writeBlock h
  · obtain ⟨t, ht, h⟩ := Except.bind_eq_ok.mp h
    obtain rfl := Except.ok.inj h
    exact .string (noReturn_writeFlow _ ht) (by decide)

/-- **Written YAML is read from a file as it was written.** -/
theorem unifyLines_write {v : Value} {s : String} (h : write v = .ok s) :
    String.ofList (Files.Tree.unifyLines s.toList) = s := by
  rw [(noReturn_write h).unifyLines_eq, String.ofList_toList]

end Yaml

end Stencil
