import Stencil.Proofs.Template.Quoted

/-!
Paths without quotes.

A directive reads the path of a reference without quotes by three shapes in turn: a number, the
path of a variable, and any run of the characters of file paths. The reference is read only where
the first of them that is there takes the whole word, which depends on how the word starts and,
where it starts as a name does, on its slashes and dots.
-/

namespace Stencil.Source

open Text (isDigit)

/-! ### What a word is read as -/

/-- Digits come first, and more than one or no letter behind. -/
def startsDigits : List Char → Bool
  | [] => false
  | c :: cs => isDigit c && !nameFollows cs

/-- A number comes first, perhaps behind a minus. -/
def startsNumber : List Char → Bool
  | '-' :: cs => startsDigits cs
  | cs => startsDigits cs

/-- Behind the first character of a variable path: every dot stands in front of a character of
names, and all else is characters of keys. -/
def isKeyed : List Char → Bool
  | [] => true
  | c :: cs => (if c == '.' then cs.head?.any isNamePart else isKeyPart c) && isKeyed cs

/-- The characters are read as one word in a directive: they start like a name and are a path of
keys, or they start neither like a name nor with a number. -/
def isBarePath : List Char → Bool
  | [] => false
  | c :: cs => if isNameStart c then isKeyed cs else !startsNumber (c :: cs)

example : isBarePath "./lib/x.echo".toList = true ∧ isBarePath "2a/b".toList = true ∧
    isBarePath "x.echo".toList = true ∧ isBarePath "lib/x.echo".toList = false ∧
    isBarePath "2024-01".toList = false := by decide

variable {c : Char} {cs w ts y : List Char}

/-- A run of such characters in front, and what ends it. -/
lemma exists_run (p : Char → Bool) (cs : List Char) :
    ∃ w r, cs = w ++ r ∧ (∀ c ∈ w, p c = true) ∧ Ends p r :=
  ⟨cs.takeWhile p, cs.dropWhile p, List.takeWhile_append_dropWhile.symm,
    List.all_eq_true.mp List.all_takeWhile, ends_dropWhile p cs⟩

/-- Nothing in front of what ends a run lets it go on. -/
lemma Ends.append_ends {p : Char → Bool} (hr : Ends p ts) (hy : Ends p y) : Ends p (ts ++ y) :=
  Ends.append (y := []) (by rwa [List.append_nil]) fun _ => hy

/-! ### Numbers -/

lemma ends_of_nameFollows (h : nameFollows cs = true) : Ends isDigit cs := by
  cases cs with
  | nil => exact ends_nil
  | cons c cs =>
    have hc : isNameStart c = true := h
    exact ends_cons.mpr (start_of_isPath (by simp [hc])).2.1

lemma fractionDigits_of_nameFollows (h : nameFollows cs = true) : fractionDigits cs = [] := by
  unfold fractionDigits
  split
  · exact absurd h (by simp [nameFollows, isNameStart])
  · rfl

lemma dropWhile_of_ends {p : Char → Bool} (h : Ends p cs) : cs.dropWhile p = cs := by
  have happend := List.takeWhile_append_dropWhile (p := p) (l := cs)
  rwa [takeWhile_eq_nil_iff.mpr h, List.nil_append] at happend

lemma unsignedNumber?_eq_none_iff (cs : List Char) :
    unsignedNumber? cs = none ↔ startsDigits cs = false := by
  cases cs with
  | nil => simp [unsignedNumber?, startsDigits]
  | cons c cs =>
    by_cases hc : isDigit c = true
    swap
    · simp [unsignedNumber?, startsDigits, hc]
    by_cases hn : nameFollows cs = true
    · have hends := ends_of_nameFollows hn
      simp [unsignedNumber?, startsDigits, hc, hn, takeWhile_eq_nil_iff.mpr hends,
        dropWhile_of_ends hends, fractionDigits_of_nameFollows hn, digitRun?]
    · have hrun : digitRun? (c :: cs.takeWhile isDigit) (cs.dropWhile isDigit) ≠ none := by
        by_cases hds : cs.takeWhile isDigit = []
        · rw [dropWhile_of_ends (takeWhile_eq_nil_iff.mp hds)]
          simp [digitRun?, hn]
        · obtain ⟨d, ds, hd⟩ := List.exists_cons_of_ne_nil hds
          rw [hd, digitRun?, if_neg (by simp)]
          split <;> simp
      have hsome : unsignedNumber? (c :: cs) ≠ none := by
        unfold unsignedNumber?
        rw [List.takeWhile_cons_of_pos hc, List.dropWhile_cons_of_pos hc]
        dsimp only
        rw [if_neg (by simp)]
        split
        · exact hrun
        · split <;> simp
      simp [startsDigits, hc, hn, hsome]

/-- No number is read exactly where none starts. -/
lemma number?_eq_none_iff (cs : List Char) : number? cs = none ↔ startsNumber cs = false := by
  by_cases h : ∃ ds, cs = '-' :: ds
  · obtain ⟨ds, rfl⟩ := h
    exact Option.map_eq_none_iff.trans (unsignedNumber?_eq_none_iff ds)
  · have hminus : ∀ ds, cs = '-' :: ds → False := fun ds hds => h ⟨ds, hds⟩
    rw [number?.eq_2 cs hminus, startsNumber.eq_2 cs hminus]
    exact unsignedNumber?_eq_none_iff cs

/-! ### Paths of variables -/

lemma isKeyed_append (hw : ∀ c ∈ w, isKeyPart c = true) : isKeyed (w ++ ts) = isKeyed ts := by
  induction w with
  | nil => rfl
  | cons c w ih =>
    obtain ⟨hc, hw⟩ := List.forall_mem_cons.mp hw
    have hdot : c ≠ '.' := by
      rintro rfl
      exact absurd hc (by decide)
    simp [isKeyed, hdot, hc, ih hw]

/-- What follows the first key is read to its end exactly where every dot leads a key. -/
lemma isKeyed_of_pathTail (hts : ∀ c ∈ ts, isPathPart c = true) {n : Nat}
    (h : pathTail n (ts ++ y) = ts) : isKeyed ts = true := by
  induction n generalizing ts with
  | zero =>
    obtain rfl : [] = ts := h
    rfl
  | succ n ih =>
    rw [pathTail] at h
    split at h
    · rename_i w hw
      obtain ⟨c, ks, r, -, rfl, hc, hks, -⟩ := key?_eq_some_iff.mp hw
      obtain ⟨ts', rfl⟩ : ∃ ts', ts = '.' :: c :: ks ++ ts' := ⟨_, h.symm⟩
      rw [List.append_assoc, List.drop_left, List.append_cancel_left_eq] at h
      have hts' := ih (fun d hd => hts d (List.mem_append_right _ hd)) h
      have hck : isKeyPart c = true := by simp [isKeyPart, hc]
      have hkeyed : isKeyed (c :: ks ++ ts') = true := by
        rw [isKeyed_append (List.forall_mem_cons.mpr ⟨hck, hks⟩), hts']
      simp only [List.cons_append] at hkeyed ⊢
      simp [isKeyed, hc] at hkeyed ⊢
      exact hkeyed
    split at h
    · rename_i w hw
      obtain ⟨ds, r, -, rfl, -⟩ := index?_eq_some_iff.mp hw
      exact absurd (hts '[' (by rw [← h]; simp)) (by decide)
    · obtain rfl : [] = ts := h
      rfl

lemma pathTail_of_isKeyed (hkeyed : isKeyed ts = true) (hts : Ends isKeyPart ts)
    (hkeys : Ends isKeyPart y) (hkey : key? y = none) (hindex : index? y = none) {n : Nat}
    (hn : ts.length ≤ n) : pathTail n (ts ++ y) = ts := by
  induction n generalizing ts with
  | zero =>
    obtain rfl : ts = [] := by simpa using hn
    rfl
  | succ n ih =>
    cases ts with
    | nil => rw [List.nil_append, pathTail, hkey, hindex]
    | cons d ts =>
      have hd : isKeyPart d = false := ends_cons.mp hts
      obtain ⟨hdot, hlater⟩ := Bool.and_eq_true_iff.mp hkeyed
      obtain rfl : d = '.' := by
        by_contra hne
        simp [hne, hd] at hdot
      cases ts with
      | nil => simp at hdot
      | cons c ts =>
        have hc : isNamePart c = true := by simpa using hdot
        have hck : isKeyPart c = true := by simp [isKeyPart, hc]
        obtain ⟨ks, ts, rfl, hks, hends⟩ := exists_run isKeyPart ts
        have hnext : key? ('.' :: c :: (ks ++ ts) ++ y) = some ('.' :: c :: ks) :=
          key?_eq_some_iff.mpr ⟨c, ks, ts ++ y, by simp, rfl, hc, hks, hends.append_ends hkeys⟩
        have hrest : isKeyed ts = true := by
          rwa [← List.cons_append, isKeyed_append (List.forall_mem_cons.mpr ⟨hck, hks⟩)] at hlater
        have hdrop : ('.' :: c :: (ks ++ ts) ++ y).drop ('.' :: c :: ks).length = ts ++ y := by
          simp
        rw [pathTail, hnext]
        dsimp only
        rw [hdrop, ih hrest hends (by simp at hn; omega)]
        rfl

/-- In front of what does not continue it, a word that starts like a name is the path of a
variable exactly where it is one of keys. -/
lemma identifier?_eq_some_iff (hc : isNameStart c = true) (hcs : ∀ d ∈ cs, isPathPart d = true)
    (hkeys : Ends isKeyPart y) (hkey : key? y = none) (hindex : index? y = none) :
    identifier? (c :: cs ++ y) = some (c :: cs) ↔ isKeyed cs = true := by
  constructor
  · intro h
    obtain ⟨d, ks, t, hw, -, hks, -, htail⟩ := exists_of_identifier? h
    obtain ⟨rfl, rfl⟩ := List.cons.inj hw
    rw [isKeyed_append hks]
    exact isKeyed_of_pathTail (fun d hd => hcs d (List.mem_append_right _ hd)) htail
  · intro h
    obtain ⟨ks, t, rfl, hks, hends⟩ := exists_run isKeyPart cs
    rw [isKeyed_append hks] at h
    have htail : pathTail (ks ++ (t ++ y)).length (t ++ y) = t :=
      pathTail_of_isKeyed h hends hkeys hkey hindex (by simp; omega)
    rw [List.cons_append, identifier?, if_pos (by simp [hc]), List.append_assoc]
    dsimp only
    rw [takeWhile_append_eq_iff.mpr ⟨hks, hends.append_ends hkeys⟩, List.length_cons,
      Nat.add_sub_cancel, List.drop_left, htail, List.cons_append]

/-! ### Words in a directive -/

/-- A character of file paths is neither blank nor a mark. -/
lemma start_of_isPathPart (hc : isPathPart c = true) : Text.isBlank c = false ∧
    c ∉ ['[', ']', '\x7b', '#', '(', ')', ',', '=', '"', '\''] := by
  have hcases : isNamePart c = true ∨ c = '.' ∨ c = '/' ∨ c = '-' := by
    simpa [isPathPart, isNamePart, or_assoc] using hc
  rcases hcases with hc | rfl | rfl | rfl
  · exact forall_isNamePart (P := fun c => Text.isBlank c = false ∧
      c ∉ ['[', ']', '\x7b', '#', '(', ')', ',', '=', '"', '\'']) (by decide +kernel) hc
  · decide
  · decide
  · decide

/-- How a word is read: as a number, else as the path of a variable, else as characters of file
paths. -/
inductive ReadsWord (cs : List Char) : TokenKind → List Char → Prop
  | number {w : List Char} (h : number? cs = some w) : ReadsWord cs .number w
  | keys {w : List Char} (hn : number? cs = none) (h : identifier? cs = some w) :
      ReadsWord cs .identifier w
  | word {w : List Char} (hn : number? cs = none) (hi : identifier? cs = none)
      (h : pathWord? cs = some w) : ReadsWord cs .identifier w

lemma ReadsWord.eq_of_keys {kind : TokenKind} {w' : List Char} (h : ReadsWord cs kind w')
    (hn : number? cs = none) (hw : identifier? cs = some w) : kind = .identifier ∧ w' = w := by
  cases h with
  | number h => simp [hn] at h
  | keys _ h => simpa [hw, eq_comm] using h
  | word _ hi _ => simp [hw] at hi

/-- What starts with a character of file paths is a word. -/
lemma step_of_isPathPart (hc : isPathPart c = true) (u : Token) (p : Position) (cs : List Char) :
    ∃ kind w, ReadsWord (c :: cs) kind w ∧ step (.directive u) ⟨p, c :: cs⟩ =
      ⟨[⟨kind, String.ofList w, p, some (String.ofList w)⟩], .directive u,
        ⟨p.advance w, (c :: cs).drop w.length⟩⟩ := by
  obtain ⟨hblank, hnone⟩ := start_of_isPathPart hc
  simp only [List.mem_cons, not_or, List.not_mem_nil, not_false_eq_true, and_true] at hnone
  have hskip : (⟨p, c :: cs⟩ : Cursor).skipBlanks = ⟨p, c :: cs⟩ := by
    unfold Cursor.skipBlanks Cursor.after
    rw [List.takeWhile_cons_of_neg (by simp [hblank])]
    rfl
  have hdirective : beginsDirective (c :: cs) = false := by
    unfold beginsDirective
    split <;> simp_all
  have hblock : beginsBlock (c :: cs) = false := by
    rw [beginsBlock, hdirective, begins_eq_false (w := "[END ") rfl (by tauto),
      begins_eq_false (w := "[ELSE") rfl (by tauto)]
    rfl
  have hslot : begins "\x7b\x7b" (c :: cs) = false := begins_eq_false rfl (by tauto)
  have hmark : mark? c = none := by
    unfold mark?
    split <;> simp_all
  have hword : pathWord? (c :: cs) = some (c :: cs.takeWhile isPathPart) := by
    rw [pathWord?, List.takeWhile_cons_of_pos hc]
    rfl
  change ∃ kind w, _ ∧ directiveStep u (Cursor.skipBlanks _) = _
  rw [hskip]
  unfold directiveStep
  simp only [hblock, hslot, hmark, hword]
  rw [if_neg (by simp), if_neg (by simp; tauto), if_neg (by simp), if_neg (by simp; tauto),
    if_neg (by simp; tauto)]
  cases hnumber : number? (c :: cs) with
  | some w => exact ⟨.number, w, .number hnumber, rfl⟩
  | none =>
    cases hpath : identifier? (c :: cs) with
    | some w => exact ⟨.identifier, w, .keys hnumber hpath, rfl⟩
    | none => exact ⟨.identifier, _, .word hnumber hpath hword, rfl⟩

/-! ### Bare paths -/

section

variable {rest : List Char} (hrest : Follows rest)

include hrest

/-- What may stand behind a word goes on with none of its shapes. -/
lemma Follows.stops : Ends isKeyPart rest ∧ Ends isPathPart rest ∧ Ends isDigit rest ∧
    nameFollows rest = false ∧ key? rest = none ∧ index? rest = none := by
  obtain ⟨c, cs, rfl, rfl | rfl | rfl⟩ := hrest <;>
    exact ⟨ends_cons.mpr (by decide), ends_cons.mpr (by decide), ends_cons.mpr (by decide), rfl,
      rfl, rfl⟩

lemma startsNumber_append (w : List Char) : startsNumber (w ++ rest) = startsNumber w := by
  obtain ⟨-, -, hdigit, hname, -, -⟩ := hrest.stops
  have hdigits (w : List Char) : startsDigits (w ++ rest) = startsDigits w := by
    match w with
    | [] =>
      cases rest with
      | nil => rfl
      | cons c cs => simp [startsDigits, ends_cons.mp hdigit]
    | [c] =>
      rw [List.singleton_append, startsDigits, hname]
      rfl
    | c :: d :: w => rfl
  have hplain {c : Char} (hc : c ≠ '-') (cs : List Char) :
      startsNumber (c :: cs) = startsDigits (c :: cs) := by
    unfold startsNumber
    split
    · rename_i h
      exact absurd (List.cons.inj h).1 hc
    · rfl
  cases w with
  | nil =>
    obtain ⟨c, cs, rfl, hc⟩ := hrest
    rw [List.nil_append, hplain (by rcases hc with rfl | rfl | rfl <;> decide)]
    exact hdigits []
  | cons c w =>
    by_cases hc : c = '-'
    · subst hc
      exact hdigits w
    · rw [List.cons_append, hplain hc, hplain hc]
      exact hdigits (c :: w)

/-- Where there is no key in front of what ends a word, there is none with it. -/
lemma key?_append_eq_none {y : List Char} (hy : key? y = none) : key? (y ++ rest) = none := by
  match y, hy with
  | [], _ => exact hrest.stops.2.2.2.2.1
  | [a], _ =>
    obtain ⟨d, ds, rfl, hd⟩ := hrest
    by_cases ha : a = '.'
    · subst ha
      rcases hd with rfl | rfl | rfl <;> rfl
    · simp [key?, ha]
  | a :: b :: y, hy =>
    by_cases ha : a = '.'
    · subst ha
      simpa [key?] using hy
    · simp [key?, ha]

/-- A word that starts like a name starts with the path of a variable. -/
lemma exists_identifier? (hc : isNameStart c = true) (hw : ∀ d ∈ c :: cs, isPathPart d = true) :
    ∃ x y, c :: cs = x ++ y ∧ identifier? (c :: cs ++ rest) = some x := by
  obtain ⟨hkeys, -, -, -, -, hnoindex⟩ := hrest.stops
  obtain ⟨x, hx⟩ : ∃ x, identifier? (c :: cs) = some x := by
    simp [identifier?, hc]
  obtain ⟨y, hy⟩ := identifier?_isPrefix hx
  refine ⟨x, y, hy.symm, ?_⟩
  rw [← hy] at hx hw ⊢
  obtain ⟨hkey, hindex⟩ := identifier?_maximal hx
  rw [List.append_assoc]
  refine identifier?_swap hx (fun h => h.append_ends hkeys) ?_ ?_
  · exact key?_append_eq_none hrest hkey
  · cases y with
    | nil => exact hnoindex
    | cons a y =>
      have ha : a ≠ '[' := by
        rintro rfl
        exact absurd (hw '[' (by simp)) (by decide)
      simp [index?, ha]

end

variable {w : List Char}

lemma number?_of_isNameStart (hc : isNameStart c = true) (cs : List Char) :
    number? (c :: cs) = none := by
  obtain ⟨-, hdigit, hnone⟩ := start_of_isPath (c := c) (by simp [hc])
  exact number?_eq_none (by rintro rfl; simp at hnone) hdigit

/-- A bare path is a name. -/
lemma readAs_bare (hw : ∀ c ∈ w, isPathPart c = true) (hbare : isBarePath w = true) :
    ReadAs w (Names (String.ofList w)) := by
  intro u p rest hrest
  obtain ⟨hkeys, hpath, -, -, hkey, hindex⟩ := hrest.stops
  cases w with
  | nil => cases hbare
  | cons c cs =>
    obtain ⟨hc, hcs⟩ := List.forall_mem_cons.mp hw
    obtain ⟨kind, w, hread, hstep⟩ := step_of_isPathPart hc u p (cs ++ rest)
    obtain ⟨rfl, rfl⟩ : kind = .identifier ∧ w = c :: cs := by
      rw [isBarePath] at hbare
      split at hbare
      · rename_i hstart
        exact hread.eq_of_keys (number?_of_isNameStart hstart _)
          ((identifier?_eq_some_iff hstart hcs hkeys hkey hindex).mpr hbare)
      · rename_i hstart
        have hnumber : number? (c :: cs ++ rest) = none := by
          rw [number?_eq_none_iff, startsNumber_append hrest]
          simpa using hbare
        have hpathWord : pathWord? (c :: cs ++ rest) = some (c :: cs) := by
          rw [pathWord?, takeWhile_append_eq_iff.mpr ⟨hw, hpath⟩]
          rfl
        cases hread with
        | number h => rw [← List.cons_append, hnumber] at h; cases h
        | keys _ h =>
          have hat : c ≠ '@' := by
            rintro rfl
            exact absurd hc (by decide)
          simp [identifier?, hstart, hat] at h
        | word _ _ h =>
          rw [← List.cons_append, hpathWord] at h
          exact ⟨rfl, (Option.some.inj h).symm⟩
    have hscan := scan_step rfl hstep
    rw [← List.cons_append, List.drop_left] at hscan
    exact ⟨_, _, ⟨_, rfl, .inr rfl, rfl⟩, hscan⟩

/-- Any other word is a number or more than one token. -/
lemma scan_of_not_isBarePath (hne : w ≠ []) (hw : ∀ c ∈ w, isPathPart c = true)
    (hbare : isBarePath w = false) (u : Token) (p : Position) (rest : List Char)
    (hrest : Follows rest) : ∃ n ts, scan (.directive u) ⟨p, w ++ rest⟩ = n :: ts ∧
      (n.kind = .number ∨ ∃ t us, ts = t :: us ∧ t.kind ≠ .directiveClose) := by
  obtain ⟨hkeys, -, -, -, hkey, hindex⟩ := hrest.stops
  obtain ⟨c, cs, rfl⟩ := List.exists_cons_of_ne_nil hne
  obtain ⟨hc, hcs⟩ := List.forall_mem_cons.mp hw
  obtain ⟨kind, w, hread, hstep⟩ := step_of_isPathPart hc u p (cs ++ rest)
  have hscan := scan_step rfl hstep
  refine ⟨_, _, hscan, ?_⟩
  rw [isBarePath] at hbare
  split at hbare
  · rename_i hstart
    -- what the path of a variable leaves of the word is the next token
    obtain ⟨x, y, hxy, hx⟩ := exists_identifier? hrest hstart hw
    obtain ⟨rfl, rfl⟩ := hread.eq_of_keys (number?_of_isNameStart hstart _) hx
    have hy : y ≠ [] := by
      rintro rfl
      rw [List.append_nil] at hxy
      rw [← hxy, identifier?_eq_some_iff hstart hcs hkeys hkey hindex, hbare] at hx
      cases hx
    obtain ⟨a, y, rfl⟩ := List.exists_cons_of_ne_nil hy
    obtain ⟨kind, v, hv, hnext⟩ := step_of_isPathPart (hw a (by simp [hxy])) u (p.advance w)
      (y ++ rest)
    have hdrop : (c :: (cs ++ rest)).drop w.length = a :: (y ++ rest) := by
      rw [← List.cons_append, hxy, List.append_assoc, List.drop_left, List.cons_append]
    have hkind : kind ≠ .directiveClose := by cases hv <;> simp
    exact .inr ⟨_, _, by rw [hdrop, scan_step rfl hnext], hkind⟩
  · rename_i hstart
    have hnumber : number? (c :: (cs ++ rest)) ≠ none := by
      rw [← List.cons_append, Ne, number?_eq_none_iff, startsNumber_append hrest]
      simpa using hbare
    cases hread with
    | number h => exact .inl rfl
    | keys h _ => exact absurd h hnumber
    | word h _ _ => exact absurd h hnumber

end Stencil.Source

namespace Stencil

open Source Template Grammar

/-! ### References -/

namespace Mention

variable (m : Mention)

/-- What starts with the directive of a reference is that reference. -/
lemma of_oneNode {d : Token} {ts : List Token} {n : Node} (hd : Directive m.word d)
    (h : OneNode (d :: ts) n) :
    ∃ t close, ts = [t, close] ∧ Name t ∧ close.kind = .directiveClose := by
  obtain ⟨hkind, hword⟩ := hd
  have hother : m.word ≠ "SECTION" ∧ m.word ≠ "IF" := by cases m <;> simp [word]
  generalize hus : d :: ts = us at h
  cases h with
  | text h => simp_all
  | slot ho => simp_all
  | context h =>
    obtain ⟨hop, -⟩ := h
    simp_all
  | imported hd hn hc => exact ⟨_, _, (List.cons.inj hus).2, hn, hc⟩
  | included hd hn hc => exact ⟨_, _, (List.cons.inj hus).2, hn, hc⟩
  | part hh =>
    cases hh with
    | plain hd => simp_all [Directive]
    | keyed hd => simp_all [Directive]
  | conditional hh =>
    obtain ⟨hd, -⟩ := hh
    simp_all [Directive]

/-- A source that starts with the directive of a reference goes on with a name and a bracket. -/
lemma of_derives {d n : Token} {ts : List Token} {ns : List Node} (hd : Directive m.word d)
    (h : Derives (d :: n :: ts) ns) :
    Name n ∧ ∃ close us, ts = close :: us ∧ close.kind = .directiveClose := by
  generalize htokens : d :: n :: ts = tokens at h
  obtain ⟨hns, he⟩ := h
  cases hns with
  | nil => simp at htokens
  | cons h hs =>
    rename_i ts₁ us _ _ _
    obtain ⟨t, ts₁, rfl⟩ := List.exists_cons_of_length_pos h.length_pos
    obtain ⟨rfl, hrest⟩ := List.cons.inj htokens
    obtain ⟨n', close, rfl, hn, hc⟩ := m.of_oneNode hd h
    obtain ⟨rfl, rfl⟩ := List.cons.inj hrest
    exact ⟨hn, close, _, rfl, hc⟩

/-- **Paths need no quotes where one token takes them.** In quotes every path is read; without
them a word of the characters of paths is read, and then as itself, exactly where it is a bare
path. -/
theorem parsesTo_bare_iff (w : String) (hne : w ≠ "")
    (hw : ∀ c ∈ w.toList, isPathPart c = true) :
    (∀ q : Quote, ParsesTo (m.source (q.literal w)) [m.node w]) ∧
      ((parse (m.source w)).success = true ↔ isBarePath w.toList = true) ∧
      (isBarePath w.toList = true → ParsesTo (m.source w) [m.node w]) := by
  have hbare (h : isBarePath w.toList = true) : ParsesTo (m.source w) [m.node w] := by
    have hread := m.parsesTo (readAs_bare hw h)
    rwa [String.ofList_toList] at hread
  refine ⟨fun q => ?_, ⟨fun hsuccess => ?_, fun h => (hbare h).1⟩, hbare⟩
  · have hread := m.parsesTo (q.spells w).readAs
    rwa [String.ofList_toList] at hread
  · by_contra h
    obtain ⟨u, p, hscan⟩ := scan_directive m.word_mem .origin (w.toList ++ [']'])
    obtain ⟨n, ts, hword, hnot⟩ := scan_of_not_isBarePath (by simpa using hne) hw (by simpa using h)
      u (p.advance [' ']) [']'] ⟨']', [], rfl, by simp⟩
    have hsource : (m.source w).toList = ("[#" ++ m.word ++ " ").toList ++ (w.toList ++ [']']) := by
      simp [source]
    have hderives := derives_of_parse hsuccess
    rw [tokenize, hsource, hscan, scan_blank (by simp), hword] at hderives
    obtain ⟨hname, close, us, rfl, hclose⟩ := m.of_derives ⟨rfl, rfl⟩ hderives
    rcases hnot with hnumber | ⟨t, us', heq, ht⟩
    · rcases hname with hname | hname <;> simp [hnumber] at hname
    · obtain ⟨rfl, -⟩ := List.cons.inj heq
      exact ht hclose

/-- A slash behind a word that starts like a name ends this word. -/
theorem parsesTo_bare_iff_slash :
    (∀ q : Quote, ParsesTo (included.source (q.literal "lib/x.echo"))
        [.included "lib/x.echo" .empty]) ∧
      (parse "[#INCLUDE lib/x.echo]").success = false := by
  have hw : ∀ c ∈ "lib/x.echo".toList, isPathPart c = true := List.all_eq_true.mp (by decide)
  obtain ⟨hquoted, hiff, -⟩ := included.parsesTo_bare_iff "lib/x.echo" (by decide) hw
  refine ⟨hquoted, ?_⟩
  rw [source_included] at hiff
  exact Bool.eq_false_iff.mpr (mt hiff.mp (by decide))

end Mention

end Stencil
