import Mathlib.Logic.Relation
import Stencil.Proofs.Yaml.Scalar

/-!
The tokens of written YAML, inside a line.

The scanner takes one token after another (`Next`), and inside a line it stands as a relation says
that names what it has read and what comes next (`At`). So each thing that is written in brackets
has one lemma: from where it stands, the scanner goes on to behind it.
-/

namespace Stencil.Yaml

namespace Scan

variable {s s' : Scanner}

/-! ### Single actions -/

section

variable {α β : Type}

lemma run_bind (x : Scan α) (f : α → Scan β) (s : Scanner) :
    (x >>= f).run s = (x.run s).bind fun r => (f r.1).run r.2 := rfl

lemma run_get (s : Scanner) : (get : Scan Scanner).run s = .ok (s, s) := rfl

lemma run_set (t s : Scanner) : (set t : Scan PUnit).run s = .ok ((), t) := rfl

lemma run_pure (a : α) (s : Scanner) : (pure a : Scan α).run s = .ok (a, s) := rfl

lemma run_moveTo (c : Cursor) (s : Scanner) :
    (moveTo c).run s = .ok ((), { s with cursor := c }) := rfl

lemma run_allowKey (b : Bool) (s : Scanner) :
    (allowKey b).run s = .ok ((), { s with keyAllowed := b }) := rfl

end

/-- No place is one where nothing but a key can stand. -/
def Optional (s : Scanner) : Prop := ∀ e ∈ s.places, e.2.required = false

/-- Without the place in the present brackets. -/
def withoutPlace (s : Scanner) : Scanner := { s with places := s.places.filter (·.1 != s.flow) }

lemma run_dropPlace (h : Optional s) : dropPlace.run s = .ok ((), withoutPlace s) := by
  unfold dropPlace
  rw [run_bind, run_get]
  cases hlookup : s.places.lookup s.flow with
  | none =>
    have hfilter : s.places.filter (·.1 != s.flow) = s.places := by
      refine List.filter_eq_self.mpr fun e he => ?_
      have hne := bne_iff_ne.mp (List.lookup_eq_none_iff.mp hlookup e he)
      exact bne_iff_ne.mpr hne.symm
    simp only [Except.bind, hlookup, withoutPlace, hfilter]
    rfl
  | some p =>
    obtain ⟨l₁, l₂, heq, -⟩ := List.lookup_eq_some_iff.mp hlookup
    have hp : p.required = false := h (s.flow, p) (by simp [heq])
    simp only [Except.bind, hlookup, hp]
    rfl

/-- The place where a key may start. -/
def placeOf (s : Scanner) : KeyPlace :=
  ⟨s.tokens.size, s.flow == 0 && s.indent == s.cursor.column, s.cursor.index, s.cursor.line,
    s.cursor.column⟩

/-- With the place where a key may start, if one may. -/
def withPlace (s : Scanner) : Scanner :=
  if s.keyAllowed then
    { s with places := s.places.filter (·.1 != s.flow) ++ [(s.flow, placeOf s)] }
  else s

lemma run_savePlace (h : Optional s) : savePlace.run s = .ok ((), withPlace s) := by
  unfold savePlace withPlace
  rw [run_bind, run_get]
  dsimp only [Except.bind]
  split
  · rw [run_bind, run_dropPlace h]
    rfl
  · rfl

/-- A key can no longer have started at the place. -/
def isStale (s : Scanner) (p : KeyPlace) : Bool :=
  p.line != s.cursor.line || 1024 < s.cursor.index - p.index

lemma run_dropStale (h : ∀ e ∈ s.places, isStale s e.2 = true → e.2.required = false) :
    dropStale.run s =
      .ok ((), { s with places := s.places.filter fun e => !isStale s e.2 }) := by
  have hany : (s.places.any fun e => isStale s e.2 && e.2.required) = false := by
    refine List.any_eq_false.mpr fun e he => ?_
    cases hstale : isStale s e.2 with
    | true => simp [h e he hstale]
    | false => simp
  unfold dropStale
  rw [run_bind, run_get]
  simp only [isStale] at hany
  simp only [Except.bind, hany]
  rfl

lemma run_unwindTo {column : Int} (h : s.flow ≠ 0 ∨ s.indent ≤ column) :
    (unwindTo column).run s = .ok ((), s) := by
  have hcond : (s.flow == 0 && decide (column < s.indent)) = false := by
    rcases h with h | h
    · simp [h]
    · simp [not_lt.mpr h]
  unfold unwindTo unwind
  rw [run_bind, run_get]
  dsimp only [Except.bind]
  rw [run_bind, run_get]
  simp only [Except.bind, hcond]
  rfl

/-- Past blanks. -/
lemma run_toNextToken {k : Nat} {c : Char} {r : List Char}
    (hrest : s.cursor.rest = List.replicate k ' ' ++ c :: r) (hc : isInline c = true)
    (hblank : c ≠ ' ') (hcomment : c ≠ '#') (n : Nat) :
    (toNextToken (n + 1)).run s = .ok ((), { s with cursor := s.cursor.past k }) := by
  have hspan : s.cursor.span (· == ' ') = (List.replicate k ' ', s.cursor.past k) :=
    Cursor.span_blanks hrest rfl (by simpa using hblank)
  have hpast : (s.cursor.past k).rest = c :: r := Cursor.rest_past_blanks hrest
  have hskip : skipComment s.cursor = s.cursor.past k := by
    unfold skipComment Cursor.dropWhile
    rw [hspan]
    simp [Cursor.sees, Cursor.peek, hpast, hcomment]
  have hbreak : lineBreak? (s.cursor.past k) = none := lineBreak?_of_isInline hpast hc
  unfold toNextToken
  rw [run_bind, run_get]
  simp only [Except.bind, hskip, hbreak]
  rfl

/-! ### Steps -/

/-- One token is read, and the text gets shorter. -/
def Next (s s' : Scanner) : Prop :=
  step.run s = .ok (true, s') ∧ s'.cursor.rest.length < s.cursor.rest.length

/-- Tokens are read one after another. -/
abbrev Reaches : Scanner → Scanner → Prop := Relation.ReflTransGen Next

/-- Reading on from where tokens were read is reading from the start. -/
lemma exists_steps (h : Reaches s s') {n : Nat} (hn : s.cursor.rest.length < n) :
    ∃ m, s'.cursor.rest.length < m ∧ (steps n).run s = (steps m).run s' := by
  induction h using Relation.ReflTransGen.head_induction_on generalizing n with
  | refl => exact ⟨n, hn, rfl⟩
  | head hstep _ ih =>
    obtain ⟨n, rfl⟩ := Nat.exists_eq_add_one_of_ne_zero (Nat.ne_zero_of_lt hn)
    obtain ⟨hrun, hless⟩ := hstep
    obtain ⟨m, hm, heq⟩ := ih (n := n) (by omega)
    refine ⟨m, hm, ?_⟩
    rw [← heq, steps, run_bind, hrun]
    rfl

/-- The scanner stands inside a line of the one block mapping, before `rest` and blanks, and has
read `ts`. Keys may have started at places in `bound` brackets or fewer; none of them has to
have. -/
structure At (s : Scanner) (ts : List Token) (flow bound : Nat) (keyAllowed : Bool)
    (rest : List Char) : Prop where
  tokens_eq : s.tokens.toList = ts
  flow_eq : s.flow = flow
  keyAllowed_eq : s.keyAllowed = keyAllowed
  rest_eq : ∃ j, s.cursor.rest = List.replicate j ' ' ++ rest
  column_pos : 0 < s.cursor.column
  indent_eq : s.indent = 0
  outer_eq : s.outer = [-1]
  places : ∀ e ∈ s.places, e.1 < bound ∧ e.2.required = false ∧ e.2.line ≤ s.cursor.line

variable {ts : List Token} {flow bound : Nat} {key : Bool} {c : Char} {rest : List Char}

lemma At.optional (h : At s ts flow bound key rest) : Optional s := fun e he => (h.places e he).2.1

/-- Blanks in front of what is to be read do not count. -/
lemma At.blank (h : At s ts flow bound key (' ' :: rest)) : At s ts flow bound key rest := by
  obtain ⟨j, hj⟩ := h.rest_eq
  exact { h with rest_eq := ⟨j + 1, by rw [hj, List.replicate_succ', List.append_assoc]; rfl⟩ }

/-- The scanner moves on to the character that is to be read. -/
lemma exists_settled (h : At s ts flow bound key (c :: rest)) (hc : isInline c = true)
    (hblank : c ≠ ' ') (hcomment : c ≠ '#') :
    ∃ s₁, settle.run s = .ok ((), s₁) ∧ At s₁ ts flow bound key (c :: rest) ∧
      s₁.cursor.rest = c :: rest ∧ s₁.cursor.rest.length ≤ s.cursor.rest.length := by
  obtain ⟨j, hj⟩ := h.rest_eq
  have hrest : (s.cursor.past j).rest = c :: rest := Cursor.rest_past_blanks hj
  let t : Scanner := { s with cursor := s.cursor.past j }
  refine ⟨{ t with places := t.places.filter fun e => !isStale t e.2 }, ?_, ?_, hrest, ?_⟩
  · have htoken : (toNextToken (s.cursor.rest.length + 1)).run s = .ok ((), t) :=
      run_toNextToken hj hc hblank hcomment _
    have hstale := run_dropStale (s := t) fun e he _ => h.optional e he
    unfold settle
    rw [run_bind, run_get]
    dsimp only [Except.bind]
    rw [run_bind, htoken]
    dsimp only [Except.bind]
    rw [run_bind, hstale]
    refine run_unwindTo (.inr ?_)
    rw [h.indent_eq]
    exact Int.natCast_nonneg _
  · exact { h with
      rest_eq := ⟨0, hrest⟩
      column_pos := Nat.add_pos_left h.column_pos j
      places := fun e he => h.places e (List.mem_of_mem_filter he) }
  · show (s.cursor.past j).rest.length ≤ _
    rw [hrest, hj]
    simp

/-- One step is known from what it makes of the first character. -/
lemma exists_next {P : Scanner → Prop} (h : At s ts flow bound key (c :: rest))
    (hc : isInline c = true) (hblank : c ≠ ' ') (hcomment : c ≠ '#')
    (htake : ∀ s₁, At s₁ ts flow bound key (c :: rest) → s₁.cursor.rest = c :: rest →
      ∃ s', takeToken.run s₁ = .ok (true, s') ∧ P s' ∧ s'.cursor.rest.length ≤ rest.length) :
    ∃ s', Next s s' ∧ P s' := by
  obtain ⟨s₁, hsettle, hat, hrest, hlength⟩ := exists_settled h hc hblank hcomment
  obtain ⟨s', htoken, hP, hless⟩ := htake s₁ hat hrest
  refine ⟨s', ⟨?_, ?_⟩, hP⟩
  · rw [step, run_bind, hsettle]
    exact htoken
  · rw [hrest, List.length_cons] at hlength
    omega

lemma isSeparator_of_pos (h : 0 < s.cursor.column) (ch : Char) : isSeparator s ch = false := by
  simp [isSeparator, h.ne']

lemma peek_of_rest (h : s.cursor.rest = c :: rest) : s.cursor.peek = some c := by
  rw [Cursor.peek, h]
  rfl

lemma skip_one (h : s.cursor.rest = c :: rest) (hc : isInline c = true) :
    s.cursor.skip 1 = s.cursor.past 1 :=
  Cursor.skip_past (w := [c]) h (.cons hc .nil)

lemma rest_past_one (h : s.cursor.rest = c :: rest) : (s.cursor.past 1).rest = rest :=
  Cursor.rest_past (w := [c]) h

/-- A token is read, and the scanner stands further on in the line. -/
lemma At.push (h : At s ts flow bound key rest) (t : Token) {d : Cursor} {rest' : List Char}
    (hrest : ∃ j, d.rest = List.replicate j ' ' ++ rest') (hcolumn : 0 < d.column)
    {f b : Nat} {k : Bool} {l : List (Nat × KeyPlace)}
    (hplaces : ∀ e ∈ l, e.1 < b ∧ e.2.required = false ∧ e.2.line ≤ d.line) :
    At { s with tokens := s.tokens.push t, cursor := d, flow := f, keyAllowed := k,
                places := l } (ts ++ [t]) f b k rest' where
  tokens_eq := by simp [h.tokens_eq]
  flow_eq := rfl
  keyAllowed_eq := rfl
  rest_eq := hrest
  column_pos := hcolumn
  indent_eq := h.indent_eq
  outer_eq := h.outer_eq
  places := hplaces

/-- The same for a token of one character. -/
lemma At.push_one (h : At s ts flow bound key (c :: rest)) (hrest : s.cursor.rest = c :: rest)
    (t : Token) {f b : Nat} {k : Bool} {l : List (Nat × KeyPlace)}
    (hplaces : ∀ e ∈ l, e.1 < b ∧ e.2.required = false ∧ e.2.line ≤ s.cursor.line) :
    At { s with tokens := s.tokens.push t, cursor := s.cursor.past 1, flow := f,
                keyAllowed := k, places := l } (ts ++ [t]) f b k rest :=
  h.push t ⟨0, rest_past_one hrest⟩ (Nat.add_pos_right _ Nat.one_pos) hplaces

/-- The place where a key may start is like the ones before it. -/
lemma At.places_withPlace (h : At s ts flow bound key rest) :
    ∀ e ∈ (withPlace s).places, (e.1 < bound ∨ key = true ∧ e.1 = flow) ∧
      e.2.required = false ∧ e.2.line ≤ s.cursor.line := by
  unfold withPlace
  rw [h.keyAllowed_eq]
  split
  · intro e he
    rcases List.mem_append.mp he with he | he
    · obtain ⟨hlt, hrest⟩ := h.places e (List.mem_of_mem_filter he)
      exact ⟨.inl hlt, hrest⟩
    · obtain rfl := List.mem_singleton.mp he
      have hcolumn : (0 : Int) ≠ s.cursor.column := by
        have := h.column_pos
        omega
      exact ⟨.inr ⟨‹_›, h.flow_eq⟩, by simp [placeOf, h.indent_eq, hcolumn], le_rfl⟩
  · intro e he
    obtain ⟨hlt, hrest⟩ := h.places e he
    exact ⟨.inl hlt, hrest⟩

/-- The places left when the one in the present brackets is given up. -/
lemma At.places_withoutPlace (h : At s ts flow bound key rest) (hbound : bound ≤ flow + 1) :
    ∀ e ∈ (withoutPlace s).places, e.1 < flow ∧ e.2.required = false ∧
      e.2.line ≤ s.cursor.line := by
  intro e he
  obtain ⟨hmem, hne⟩ := List.mem_filter.mp he
  obtain ⟨hlt, hrest⟩ := h.places e hmem
  rw [bne_iff_ne, h.flow_eq] at hne
  exact ⟨by omega, hrest⟩

/-! ### Marks in brackets -/

/-- A bracket opens. -/
lemma exists_next_open {t : Token} (hc : c = '[' ∧ t = .flowSequenceStart ∨
    c = '\x7b' ∧ t = .flowMappingStart) (hbound : bound ≤ flow + 1)
    (h : At s ts flow bound key (c :: rest)) :
    ∃ s', Next s s' ∧ At s' (ts ++ [t]) (flow + 1) (flow + 1) true rest := by
  have hinline : isInline c = true ∧ c ≠ ' ' ∧ c ≠ '#' := by
    rcases hc with ⟨rfl, -⟩ | ⟨rfl, -⟩ <;> decide
  refine exists_next h hinline.1 hinline.2.1 hinline.2.2 fun s₁ hat hrest => ?_
  have hrun : takeToken.run s₁ = (do openBracket t; return true : Scan Bool).run s₁ := by
    rcases hc with ⟨rfl, rfl⟩ | ⟨rfl, rfl⟩ <;>
    · unfold takeToken
      rw [run_bind, run_get]
      simp only [Except.bind, peek_of_rest hrest, isSeparator_of_pos hat.column_pos]
      rfl
  refine ⟨_, ?_, hat.push_one hrest t (f := flow + 1) (b := flow + 1) (k := true)
    (l := (withPlace s₁).places) fun e he => ?_, (congrArg List.length (rest_past_one hrest)).le⟩
  · rw [hrun, run_bind, openBracket, run_bind, run_savePlace hat.optional,
      ← skip_one hrest hinline.1, ← hat.flow_eq]
    unfold withPlace
    split <;> rfl
  · obtain ⟨hlt, hrest⟩ := hat.places_withPlace e he
    exact ⟨by omega, hrest⟩

/-- A bracket closes. -/
lemma exists_next_close {t : Token} (hc : c = ']' ∧ t = .flowSequenceEnd ∨
    c = '\x7d' ∧ t = .flowMappingEnd) (hbound : bound ≤ flow + 2)
    (h : At s ts (flow + 1) bound key (c :: rest)) :
    ∃ s', Next s s' ∧ At s' (ts ++ [t]) flow (flow + 1) false rest := by
  have hinline : isInline c = true ∧ c ≠ ' ' ∧ c ≠ '#' := by
    rcases hc with ⟨rfl, -⟩ | ⟨rfl, -⟩ <;> decide
  refine exists_next h hinline.1 hinline.2.1 hinline.2.2 fun s₁ hat hrest => ?_
  have hrun : takeToken.run s₁ = (do closeBracket t; return true : Scan Bool).run s₁ := by
    rcases hc with ⟨rfl, rfl⟩ | ⟨rfl, rfl⟩ <;>
    · unfold takeToken
      rw [run_bind, run_get]
      simp only [Except.bind, peek_of_rest hrest, isSeparator_of_pos hat.column_pos]
      rfl
  have hopen : ((withoutPlace s₁).flow == 0) = false := by
    simp [withoutPlace, hat.flow_eq]
  have hless : s₁.flow - 1 = flow := by
    rw [hat.flow_eq]
    rfl
  refine ⟨_, ?_, hat.push_one hrest t (f := flow) (k := false)
    (hat.places_withoutPlace hbound), (congrArg List.length (rest_past_one hrest)).le⟩
  rw [hrun, run_bind, closeBracket, run_bind, run_dropPlace hat.optional,
    ← skip_one hrest hinline.1, ← hless]
  dsimp only [Except.bind]
  rw [run_bind, run_get]
  simp only [Except.bind, hopen]
  rfl

/-- A comma in brackets. -/
lemma exists_next_comma (hbound : bound ≤ flow + 1) (h : At s ts flow bound key (',' :: rest)) :
    ∃ s', Next s s' ∧ At s' (ts ++ [.flowEntry]) flow flow true rest := by
  refine exists_next h (by decide) (by decide) (by decide) fun s₁ hat hrest => ?_
  have hrun : takeToken.run s₁ = (do flowEntry; return true : Scan Bool).run s₁ := by
    unfold takeToken
    rw [run_bind, run_get]
    simp only [Except.bind, peek_of_rest hrest, isSeparator_of_pos hat.column_pos]
    rfl
  have hdrop := run_dropPlace (s := { s₁ with keyAllowed := true }) hat.optional
  refine ⟨_, ?_, hat.push_one hrest .flowEntry (f := flow) (k := true)
    (hat.places_withoutPlace hbound), (congrArg List.length (rest_past_one hrest)).le⟩
  rw [hrun, run_bind, flowEntry, run_bind, run_allowKey, ← hat.flow_eq]
  dsimp only [Except.bind]
  rw [run_bind, hdrop, ← skip_one hrest (by decide)]
  rfl

/-- In brackets no block collection begins. -/
lemma run_enterBlock (h : s.flow ≠ 0) (t : Token) : (enterBlock t).run s = .ok ((), s) := by
  unfold enterBlock
  rw [run_bind, run_get]
  simp only [Except.bind, beq_eq_false_iff_ne.mpr h]
  rfl

/-- The mark of a key in brackets that has a mark. -/
lemma exists_next_mark (hflow : 0 < flow) (hbound : bound ≤ flow + 1)
    (h : At s ts flow bound key ('?' :: rest)) :
    ∃ s', Next s s' ∧ At s' (ts ++ [.key]) flow flow false rest := by
  refine exists_next h (by decide) (by decide) (by decide) fun s₁ hat hrest => ?_
  have hflow₁ : s₁.flow ≠ 0 := hat.flow_eq.symm ▸ hflow.ne'
  have hrun : takeToken.run s₁ = (do explicitKey; return true : Scan Bool).run s₁ := by
    unfold takeToken
    rw [run_bind, run_get]
    simp only [Except.bind, peek_of_rest hrest, isSeparator_of_pos hat.column_pos,
      bne_iff_ne.mpr hflow₁]
    rfl
  have hdrop := run_dropPlace (s := { s₁ with keyAllowed := false }) hat.optional
  refine ⟨_, ?_, hat.push_one hrest .key (f := flow) (k := false)
    (hat.places_withoutPlace hbound), (congrArg List.length (rest_past_one hrest)).le⟩
  rw [hrun, run_bind, explicitKey, run_bind, run_enterBlock hflow₁, ← hat.flow_eq]
  dsimp only [Except.bind]
  rw [run_bind, run_get]
  dsimp only [Except.bind]
  rw [run_bind, run_allowKey, beq_eq_false_iff_ne.mpr hflow₁]
  dsimp only [Except.bind]
  rw [run_bind, hdrop, ← skip_one hrest (by decide)]
  rfl

/-- The colon behind a key in brackets that has a mark. -/
lemma exists_next_colon (hflow : 0 < flow) (h : At s ts flow flow key (':' :: rest)) :
    ∃ s', Next s s' ∧ At s' (ts ++ [.value]) flow flow false rest := by
  refine exists_next h (by decide) (by decide) (by decide) fun s₁ hat hrest => ?_
  have hflow₁ : s₁.flow ≠ 0 := hat.flow_eq.symm ▸ hflow.ne'
  have hrun : takeToken.run s₁ = (do value; return true : Scan Bool).run s₁ := by
    unfold takeToken
    rw [run_bind, run_get]
    simp only [Except.bind, peek_of_rest hrest, isSeparator_of_pos hat.column_pos,
      bne_iff_ne.mpr hflow₁]
    rfl
  have hlookup : s₁.places.lookup s₁.flow = none := by
    refine List.lookup_eq_none_iff.mpr fun e he => ?_
    rw [hat.flow_eq]
    exact bne_iff_ne.mpr (hat.places e he).1.ne'
  have hdrop := run_dropPlace (s := { s₁ with keyAllowed := false }) hat.optional
  refine ⟨_, ?_, hat.push_one hrest .value (f := flow) (k := false)
    (hat.places_withoutPlace (Nat.le_succ flow)), (congrArg List.length (rest_past_one hrest)).le⟩
  rw [hrun, run_bind, value, run_bind, run_get, ← hat.flow_eq]
  simp only [Except.bind, hlookup]
  rw [run_bind, run_enterBlock hflow₁]
  dsimp only [Except.bind]
  rw [run_bind, run_allowKey, beq_eq_false_iff_ne.mpr hflow₁]
  dsimp only [Except.bind]
  rw [run_bind, hdrop, ← skip_one hrest (by decide)]
  rfl

/-! ### Scalars and tags -/

/-- The brackets in which keys may have started, when something was read that can be a key. -/
def boundAfter (key : Bool) (flow bound : Nat) : Nat := if key then flow + 1 else bound

lemma boundAfter_le (hbound : bound ≤ flow + 1) : boundAfter key flow bound ≤ flow + 1 := by
  unfold boundAfter
  split <;> omega

/-- What a key can start with is read. -/
lemma At.push_content (h : At s ts flow bound key (c :: rest)) (hbound : bound ≤ flow + 1)
    (t : Token) {d : Cursor} {rest' : List Char}
    (hrest : ∃ j, d.rest = List.replicate j ' ' ++ rest') (hcolumn : 0 < d.column)
    (hline : d.line = s.cursor.line) :
    At { withPlace s with tokens := s.tokens.push t, cursor := d, keyAllowed := false }
      (ts ++ [t]) flow (boundAfter key flow bound) false rest' := by
  have hplaces : ∀ e ∈ (withPlace s).places, e.1 < boundAfter key flow bound ∧
      e.2.required = false ∧ e.2.line ≤ d.line := by
    intro e he
    obtain ⟨hlt, hrest⟩ := h.places_withPlace e he
    rw [hline]
    refine ⟨?_, hrest⟩
    unfold boundAfter
    rcases hlt with hlt | ⟨rfl, rfl⟩
    · split <;> omega
    · exact Nat.lt_succ_self _
  have hpush := h.push t hrest hcolumn (f := flow) (k := false) hplaces
  unfold withPlace at hpush ⊢
  rw [← h.flow_eq] at hpush ⊢
  split at hpush <;> rename_i hkey
  · rwa [if_pos hkey]
  · rwa [if_neg hkey]

/-- A token that a key can start with. -/
lemma exists_next_content {read : Cursor → Except Fault (Token × Cursor)} {w : List Char}
    {t : Token} (hw : Inline (c :: w)) (hblank : c ≠ ' ') (hcomment : c ≠ '#')
    (hread : ∀ d : Cursor, d.rest = c :: w ++ rest → read d = .ok (t, d.past (w.length + 1)))
    (hrun : ∀ s₁ : Scanner, s₁.cursor.peek = some c → 0 < s₁.cursor.column →
      takeToken.run s₁ = (do content read; return true : Scan Bool).run s₁)
    (hbound : bound ≤ flow + 1) (h : At s ts flow bound key (c :: w ++ rest)) :
    ∃ s', Next s s' ∧ At s' (ts ++ [t]) flow (boundAfter key flow bound) false rest := by
  refine exists_next h (hw c List.mem_cons_self) hblank hcomment fun s₁ hat hrest => ?_
  have hpast : (s₁.cursor.past (w.length + 1)).rest = rest :=
    Cursor.rest_past (w := c :: w) hrest
  refine ⟨_, ?_, hat.push_content hbound t (d := s₁.cursor.past (w.length + 1))
    ⟨0, hpast⟩ (Nat.add_pos_left hat.column_pos _) rfl, ?_⟩
  · have hcursor : (withPlace s₁).cursor = s₁.cursor := by
      unfold withPlace
      split <;> rfl
    have htokens : (withPlace s₁).tokens = s₁.tokens := by
      unfold withPlace
      split <;> rfl
    rw [hrun s₁ (peek_of_rest hrest) hat.column_pos, run_bind, content, run_bind,
      run_savePlace hat.optional]
    dsimp only [Except.bind]
    rw [run_bind, run_allowKey]
    dsimp only [Except.bind]
    rw [run_bind, run_get]
    dsimp only [Except.bind]
    rw [run_bind, hcursor, hread _ hrest, ← htokens]
    rfl
  · rw [hpast]
    simp

lemma exists_next_quoted {t : String} (hbound : bound ≤ flow + 1)
    (h : At s ts flow bound key ((quotedText t).toList ++ rest)) :
    ∃ s', Next s s' ∧
      At s' (ts ++ [.scalar t false]) flow (boundAfter key flow bound) false rest := by
  have htext : (quotedText t).toList = '"' :: (t.toList.flatMap quotedChar ++ ['"']) := by
    rw [quotedText, String.toList_ofList, List.cons_append]
  have hinline := inline_quotedText t
  have hread (d : Cursor) (hd : d.rest = (quotedText t).toList ++ rest) :
      (quotedScalar true d).map (fun (r : String × Cursor) => (Token.scalar r.1 false, r.2)) =
        .ok (.scalar t false, d.past (quotedText t).length) := by
    rw [quotedScalar_quotedText hd]
    rfl
  rw [← String.length_toList] at hread
  rw [htext] at h hinline hread
  refine exists_next_content hinline (by decide) (by decide) hread (fun s₁ hpeek hcolumn => ?_)
    hbound h
  unfold takeToken
  rw [run_bind, run_get]
  simp only [Except.bind, hpeek, isSeparator_of_pos hcolumn]
  rfl

/-- What marks bytes. -/
def binaryMark : TagMark := ⟨some "!!", "binary"⟩

lemma tag_binary {d : Cursor} (h : d.rest = "!!binary".toList ++ ' ' :: rest) :
    tag d = .ok (binaryMark, d.past 8) := by
  have h₀ : d.rest = '!' :: '!' :: 'b' :: ("inary".toList ++ ' ' :: rest) := h
  have h₁ : (d.past 1).rest = '!' :: 'b' :: ("inary".toList ++ ' ' :: rest) :=
    Cursor.rest_past (w := ['!']) h₀
  have h₂ : (d.past 2).rest = "binary".toList ++ ' ' :: rest :=
    Cursor.rest_past (w := ['!', '!']) h₀
  have h₈ : (d.past 8).rest = ' ' :: rest := Cursor.rest_past (w := "!!binary".toList) h
  have hnext : d.next = d.past 1 := Cursor.next_past h₀ (by decide)
  have hnext' : (d.past 1).next = d.past 2 := by
    rw [Cursor.next_past h₁ (by decide), Cursor.past_past]
  have hname : (d.past 1).span isNameChar = ([], d.past 1) :=
    Cursor.span_past (w := []) h₁ .nil (List.forall_mem_nil _) (by rintro _ ⟨⟩; decide)
  have huri : (d.past 2).span isUriChar = ("binary".toList, d.past 8) := by
    have hspan := Cursor.span_past (p := isUriChar) h₂
      (fun c hc => List.all_eq_true.mp (by decide) c hc)
      (fun c hc => List.all_eq_true.mp (by decide) c hc) (by rintro _ ⟨⟩; decide)
    rwa [Cursor.past_past] at hspan
  have hhandle : handle d = .ok ("!!", d.past 2) := by
    simp [handle, Cursor.sees, Cursor.peek, h₀, h₁, hnext, hname, hnext']
  have hsuffix : uri (d.past 2) = .ok ("binary", d.past 8) := by
    have hfrom (n : Nat) : uriFrom (n + 1) (d.past 2) = .ok ("binary".toList, d.past 8) := by
      simp [uriFrom, huri, Cursor.sees, Cursor.peek, h₈]
      rfl
    have hindex : (d.past 8).index ≠ (d.past 2).index := by
      simp [Cursor.past]
    unfold uri
    rw [hfrom]
    simp [bind, Except.bind, hindex]
    rfl
  have hmark : hasHandle d.next.rest = true := by
    rw [hnext, h₁]
    rfl
  have hpeek : d.next.peek = some '!' := by
    rw [hnext, Cursor.peek, h₁]
    rfl
  have hend : (d.past 8).peek = some ' ' := by
    rw [Cursor.peek, h₈]
    rfl
  have hblank : endsMark (some ' ') = true := rfl
  unfold tag
  simp only [hpeek, hmark, hhandle, hsuffix, hend, hblank, bind, Except.bind, pure, Except.pure]
  rfl

lemma exists_next_tag (hbound : bound ≤ flow + 1)
    (h : At s ts flow bound key ("!!binary".toList ++ ' ' :: rest)) :
    ∃ s', Next s s' ∧
      At s' (ts ++ [.tag binaryMark]) flow (boundAfter key flow bound) false rest := by
  have hread (d : Cursor) (hd : d.rest = "!!binary".toList ++ ' ' :: rest) :
      (tag d).map (fun (r : TagMark × Cursor) => (Token.tag r.1, r.2)) =
        .ok (.tag binaryMark, d.past 8) := by
    rw [tag_binary hd]
    rfl
  obtain ⟨s', hnext, hat⟩ := exists_next_content (c := '!') (w := "!binary".toList)
    (fun c hc => List.all_eq_true.mp (by decide) c hc) (by decide) (by decide) hread
    (fun s₁ hpeek hcolumn => by
      unfold takeToken
      rw [run_bind, run_get]
      simp only [Except.bind, hpeek, isSeparator_of_pos hcolumn]
      rfl) hbound h
  exact ⟨s', hnext, hat.blank⟩

lemma run_takeToken_plain {cs : List Char} (h : LeadsPlain cs) (hrest : s.cursor.rest = cs ++ rest)
    (hcolumn : 0 < s.cursor.column) :
    takeToken.run s = (do plain; return true : Scan Bool).run s := by
  obtain ⟨c, cs, rfl, hlead⟩ := h
  have hpeek : s.cursor.peek = some c := peek_of_rest hrest
  unfold takeToken
  rw [run_bind, run_get]
  rcases hlead with hlead | ⟨rfl, d, ds, rfl, hd⟩
  · obtain ⟨hc, hmark⟩ := Bool.and_eq_true_iff.mp hlead
    have hne (d : Char) (hd : canLead d = false) : (c == d) = false := by
      rw [beq_eq_false_iff_ne]
      rintro rfl
      exact Bool.false_ne_true (hd.symm.trans hlead)
    have hstarts : startsPlain s c = true := by
      have hlist : "-?:,[]\x7b\x7d#&*!|>'\"%@\x60".toList.contains c = false := by
        simp only [List.contains_eq_any_beq, List.any_eq_false]
        intro d hd
        have := List.all_eq_true.mp (show ("-?:,[]\x7b\x7d#&*!|>'\"%@\x60".toList.all
          fun d => !canLead d) = true by decide) d hd
        simp [hne d (by simpa using this)]
      simp only [startsPlain, endsWord_of_isOrdinary hc, hlist]
      rfl
    simp only [Except.bind, hpeek, isSeparator_of_pos hcolumn, hne '%' rfl, hne '[' rfl,
      hne '\x7b' rfl, hne ']' rfl, hne '\x7d' rfl, hne ',' rfl, hne '-' rfl, hne '?' rfl,
      hne ':' rfl, hne '*' rfl, hne '&' rfl, hne '!' rfl, hne '|' rfl, hne '>' rfl, hne '\'' rfl,
      hne '"' rfl, hstarts]
    rfl
  · have hnext : s.cursor.next.peek = some d := by
      rw [Cursor.next_past hrest (by decide), Cursor.peek, rest_past_one hrest]
      rfl
    simp only [Except.bind, hpeek, isSeparator_of_pos hcolumn, hnext, endsWord_of_isOrdinary hd,
      startsPlain]
    rfl

/-- A scalar without quotes in brackets. -/
lemma exists_next_plain {cs : List Char} {k : Nat} (hcs : IsPlain cs) (hlead : LeadsPlain cs)
    (hstops : StopsPlain rest) (hflow : 0 < flow) (hbound : bound ≤ flow + 1)
    (h : At s ts flow bound key (cs ++ (List.replicate k ' ' ++ rest))) :
    ∃ s', Next s s' ∧ At s' (ts ++ [.scalar (String.ofList cs) true]) flow
      (boundAfter key flow bound) false rest := by
  obtain ⟨c, cs', rfl, hc⟩ := id hlead
  have hhead : isInline c = true ∧ c ≠ ' ' ∧ c ≠ '#' := by
    obtain ⟨w, ws, heq, hws⟩ := hcs
    obtain ⟨hne, hword⟩ := hws w List.mem_cons_self
    obtain ⟨d, ds, rfl⟩ := List.exists_cons_of_ne_nil hne
    obtain ⟨rfl, -⟩ := List.cons.inj heq
    exact head_of_isWord hword
  refine exists_next h hhead.1 hhead.2.1 hhead.2.2 fun s₁ hat hrest => ?_
  have hpast : (s₁.cursor.past ((c :: cs').length + k)).rest = rest := by
    rw [← Cursor.past_past]
    exact Cursor.rest_past_blanks (Cursor.rest_past (w := c :: cs') hrest)
  refine ⟨_, ?_, hat.push_content hbound (.scalar (String.ofList (c :: cs')) true)
    (d := s₁.cursor.past ((c :: cs').length + k)) ⟨0, hpast⟩
    (Nat.add_pos_left hat.column_pos _) rfl, ?_⟩
  · have hsame : (withPlace s₁).cursor = s₁.cursor ∧ (withPlace s₁).tokens = s₁.tokens ∧
        (withPlace s₁).flow = s₁.flow := by
      unfold withPlace
      split <;> exact ⟨rfl, rfl, rfl⟩
    have hin : ((withPlace s₁).flow != 0) = true := by
      rw [hsame.2.2, hat.flow_eq]
      exact bne_iff_ne.mpr hflow.ne'
    rw [run_takeToken_plain hlead hrest hat.column_pos, run_bind, plain, run_bind,
      run_savePlace hat.optional]
    dsimp only [Except.bind]
    rw [run_bind, run_get]
    dsimp only [Except.bind]
    rw [hin, hsame.1, plainScalar_of_isPlain hcs hstops hrest, ← hsame.2.1]
    rfl
  · rw [hpast]
    simp
    omega

end Scan

end Stencil.Yaml
