import Stencil.Proofs.Yaml.Scan

/-!
Keys and lines of written YAML.

A key without a mark is only known for one when its colon comes, and then the token of a key is put
in at the place that was remembered (`exists_next_key`), outside of brackets with that of the
mapping in front. Lines begin with such a key (`AtLine`), or else with the mark of an item.
-/

namespace Stencil.Yaml

namespace Scan

variable {s : Scanner} {ts : List Token} {flow bound : Nat} {key : Bool} {c : Char}
  {rest : List Char}

/-! ### Keys without a mark -/

lemma isSeparator_of_ne (hpeek : s.cursor.peek = some c) {d : Char} (hne : c ≠ d) :
    isSeparator s d = false := by
  simp [isSeparator, Cursor.sees, hpeek, hne]

/-- A text at a place where a key may start is remembered as one that a colon can follow. -/
lemma exists_settled_key {t : String} (hkey : s.keyAllowed = true)
    (hplaces : ∀ e ∈ s.places, e.1 < s.flow ∧ e.2.required = false)
    (hindent : s.indent ≤ s.cursor.column) (hshort : (quotedText t).length ≤ simpleKeyLimit)
    (hrest : s.cursor.rest = (quotedText t).toList ++ ':' :: rest) :
    ∃ s₂ ps, takeToken.run s = .ok (true, s₂) ∧ s₂.cursor.rest = ':' :: rest ∧
      settle.run s₂ = .ok ((), { s with
        tokens := s.tokens.push (.scalar t false), cursor := s.cursor.past (quotedText t).length
        keyAllowed := false, places := ps }) ∧
      ps.lookup s.flow = some (placeOf s) ∧ ∀ e ∈ ps, e.1 ≠ s.flow → e ∈ s.places := by
  have hoptional : Optional s := fun e he => (hplaces e he).2
  have hhead : s.cursor.peek = some '"' := by
    rw [Cursor.peek, hrest, quotedText, String.toList_ofList]
    rfl
  have hfilter : s.places.filter (·.1 != s.flow) = s.places :=
    List.filter_eq_self.mpr fun e he => bne_iff_ne.mpr (hplaces e he).1.ne
  have hpast : (s.cursor.past (quotedText t).length).rest = ':' :: rest := by
    rw [← String.length_toList]
    exact Cursor.rest_past hrest
  have hread : (quotedScalar true s.cursor).map
      (fun (r : String × Cursor) => (Token.scalar r.1 false, r.2)) =
        .ok (.scalar t false, s.cursor.past (quotedText t).length) := by
    rw [quotedScalar_quotedText hrest]
    rfl
  generalize (quotedText t).length = n at *
  let s₂ : Scanner := { s with
    tokens := s.tokens.push (.scalar t false), cursor := s.cursor.past n
    keyAllowed := false, places := s.places ++ [(s.flow, placeOf s)] }
  have htake : takeToken.run s = .ok (true, s₂) := by
    have hrun : takeToken.run s = (do quoted true; return true : Scan Bool).run s := by
      unfold takeToken
      rw [run_bind, run_get]
      simp only [Except.bind, hhead, isSeparator_of_ne hhead (d := '-') (by decide),
        isSeparator_of_ne hhead (d := '.') (by decide)]
      rfl
    have hwith : withPlace s = { s with places := s.places ++ [(s.flow, placeOf s)] } := by
      rw [withPlace, if_pos hkey, hfilter]
    rw [hrun, run_bind, quoted, content, run_bind, run_savePlace hoptional, hwith]
    dsimp only [Except.bind]
    rw [run_bind, run_allowKey]
    dsimp only [Except.bind]
    rw [run_bind, run_get]
    dsimp only [Except.bind]
    rw [run_bind, hread]
    rfl
  have hfresh : isStale s₂ (placeOf s) = false := by
    have hlimit : simpleKeyLimit = 1000 := rfl
    simp [isStale, placeOf, s₂, Cursor.past]
    omega
  have hsettle : settle.run s₂ =
      .ok ((), { s₂ with places := s₂.places.filter fun e => !isStale s₂ e.2 }) := by
    have htoken : (toNextToken (s₂.cursor.rest.length + 1)).run s₂ = .ok ((), s₂) := by
      rw [run_toNextToken (s := s₂) (k := 0) hpast (by decide) (by decide) (by decide),
        Cursor.past_zero]
    have hstale := run_dropStale (s := s₂) fun e he hstale => by
      rcases List.mem_append.mp he with he | he
      · exact (hplaces e he).2
      · obtain rfl := List.mem_singleton.mp he
        rw [hfresh] at hstale
        cases hstale
    unfold settle
    rw [run_bind, run_get]
    dsimp only [Except.bind]
    rw [run_bind, htoken]
    dsimp only [Except.bind]
    rw [run_bind, hstale]
    refine run_unwindTo (.inr (hindent.trans ?_))
    simp [s₂, Cursor.past]
  refine ⟨s₂, _, htake, hpast, hsettle, ?_, fun e he hne => ?_⟩
  · have hnone : (s.places.filter fun e => !isStale s₂ e.2).lookup s.flow = none := by
      refine List.lookup_eq_none_iff.mpr fun e he => ?_
      exact bne_iff_ne.mpr (hplaces e (List.mem_of_mem_filter he)).1.ne'
    rw [List.filter_append, List.lookup_append, hnone]
    simp [hfresh]
  · rcases List.mem_append.mp (List.mem_of_mem_filter he) with he | he
    · exact he
    · obtain rfl := List.mem_singleton.mp he
      exact absurd rfl hne

lemma run_deepen_of_not (column : Nat) (h : ¬ s.indent < column) :
    (deepen column).run s = .ok (false, s) := by
  unfold deepen
  rw [run_bind, run_get]
  simp only [Except.bind, if_neg h]
  rfl

lemma run_deepen_of_lt (column : Nat) (h : s.indent < column) : (deepen column).run s =
    .ok (true, { s with indent := column, outer := s.indent :: s.outer }) := by
  unfold deepen
  rw [run_bind, run_get]
  simp only [Except.bind, if_pos h]
  rfl

section

variable {p : KeyPlace} (hlookup : s.places.lookup s.flow = some p)

include hlookup

/-- A colon behind a remembered place that opens no collection. -/
lemma run_value_of_not (hflat : s.flow ≠ 0 ∨ ¬ s.indent < p.column) :
    value.run s = .ok ((), { s with
      places := s.places.filter (·.1 != s.flow), tokens := (putAt s.tokens p.token .key).push .value
      keyAllowed := false, cursor := s.cursor.skip 1 }) := by
  have hdeepen := run_deepen_of_not p.column (s := { s with
    places := s.places.filter (·.1 != s.flow), tokens := putAt s.tokens p.token .key
    keyAllowed := false })
  unfold value
  rw [run_bind, run_get]
  simp only [Except.bind, hlookup]
  rw [run_bind, run_set]
  dsimp only [Except.bind]
  rcases hflat with hflow | hindent
  · simp only [beq_eq_false_iff_ne.mpr hflow]
    rfl
  · cases s.flow == 0 with
    | false => rfl
    | true =>
      simp only [if_true]
      rw [run_bind, hdeepen hindent]
      rfl

/-- A colon behind a remembered place that opens a collection. -/
lemma run_value_of_lt (hflow : s.flow = 0) (hindent : s.indent < p.column) :
    value.run s = .ok ((), { s with
      places := s.places.filter (·.1 != s.flow)
      tokens := (putAt (putAt s.tokens p.token .key) p.token .blockMappingStart).push .value
      indent := p.column, outer := s.indent :: s.outer
      keyAllowed := false, cursor := s.cursor.skip 1 }) := by
  have hdeepen := run_deepen_of_lt p.column (s := { s with
    places := s.places.filter (·.1 != s.flow), tokens := putAt s.tokens p.token .key
    keyAllowed := false }) hindent
  unfold value
  rw [run_bind, run_get]
  simp only [Except.bind, hlookup]
  rw [run_bind, run_set]
  simp only [Except.bind, beq_iff_eq.mpr hflow, if_true]
  rw [run_bind, hdeepen]
  rfl

end

lemma toList_putAt (ts : Array Token) (us vs : List Token) (h : ts.toList = us ++ vs) (t : Token) :
    (putAt ts us.length t).toList = us ++ t :: vs := by
  simp [putAt, h]

lemma run_takeToken_value (hrest : s.cursor.rest = ':' :: rest)
    (hgoes : 0 < s.flow ∨ endsWord rest.head? = true) :
    takeToken.run s = (do value; return true : Scan Bool).run s := by
  have hpeek := peek_of_rest hrest
  have hnext : s.cursor.next.peek = rest.head? := by
    rw [Cursor.next_past hrest (by decide), Cursor.peek, rest_past_one hrest]
  have hcond : (s.flow != 0 || endsWord s.cursor.next.peek) = true := by
    rw [hnext]
    rcases hgoes with hflow | hword
    · simp [hflow.ne']
    · simp [hword]
  unfold takeToken
  rw [run_bind, run_get]
  simp only [Except.bind, hpeek, isSeparator_of_ne hpeek (d := '-') (by decide),
    isSeparator_of_ne hpeek (d := '.') (by decide), hcond]
  rfl

/-- No block collection is open before the first key, and one mapping from then on. -/
def HasOpened (s : Scanner) : (first : Bool) → Prop
  | true => s.flow = 0 ∧ s.indent = -1 ∧ s.outer = []
  | false => s.indent = 0 ∧ s.outer = [-1]

/-- The tokens of a key without a mark; the first one opens the mapping. -/
def keyTokens (first : Bool) (t : String) : List Token :=
  (if first then [.blockMappingStart] else []) ++ [.key, .scalar t false, .value]

/-- A short text where a key may start, and the colon behind it. -/
lemma exists_next_key {t : String} {first : Bool} (hkey : s.keyAllowed = true)
    (hplaces : ∀ e ∈ s.places, e.1 < s.flow ∧ e.2.required = false ∧ e.2.line ≤ s.cursor.line)
    (hopened : HasOpened s first) (hcolumn : s.flow = 0 → s.cursor.column = 0)
    (hshort : (quotedText t).length ≤ simpleKeyLimit)
    (hrest : s.cursor.rest = (quotedText t).toList ++ ':' :: rest)
    (hgoes : 0 < s.flow ∨ endsWord rest.head? = true) :
    ∃ s₂ s', takeToken.run s = .ok (true, s₂) ∧ s₂.cursor.rest = ':' :: rest ∧ Next s₂ s' ∧
      At s' (s.tokens.toList ++ keyTokens first t) s.flow s.flow false rest := by
  have hindent : s.indent ≤ s.cursor.column := by
    cases first with
    | true => rw [hopened.2.1]; omega
    | false => rw [hopened.1]; omega
  obtain ⟨s₂, ps, htake, hrest₂, hsettle, hlookup, hps⟩ := exists_settled_key hkey
    (fun e he => ⟨(hplaces e he).1, (hplaces e he).2.1⟩) hindent hshort hrest
  have hpast : (s.cursor.past (quotedText t).length).rest = ':' :: rest := by
    rw [← String.length_toList]
    exact Cursor.rest_past hrest
  generalize (quotedText t).length = n at *
  let s₃ : Scanner := { s with
    tokens := s.tokens.push (.scalar t false), cursor := s.cursor.past n
    keyAllowed := false, places := ps }
  have hlast : ((s.cursor.past n).past 1).rest = rest := Cursor.rest_past (w := [':']) hpast
  have htokens : (putAt s₃.tokens (placeOf s).token .key).toList =
      s.tokens.toList ++ [.key, .scalar t false] := by
    exact toList_putAt _ s.tokens.toList [.scalar t false] (by simp [s₃]) _
  have hleft : ∀ e ∈ ps.filter (·.1 != s.flow), e.1 < s.flow ∧ e.2.required = false ∧
      e.2.line ≤ s.cursor.line := fun e he => by
    obtain ⟨hmem, hne⟩ := List.mem_filter.mp he
    exact hplaces e (hps e hmem (bne_iff_ne.mp hne))
  have hstep (s' : Scanner) (hvalue : value.run s₃ = .ok ((), s')) (hend : s'.cursor.rest = rest) :
      Next s₂ s' := by
    refine ⟨?_, ?_⟩
    · rw [step, run_bind, hsettle]
      dsimp only [Except.bind]
      rw [run_takeToken_value (s := s₃) hpast hgoes, run_bind, hvalue]
      rfl
    · rw [hend, hrest₂]
      exact Nat.lt_succ_self _
  have hskip : s₃.cursor.skip 1 = s₃.cursor.past 1 := skip_one hpast (by decide)
  cases first with
  | true =>
    obtain ⟨hflow, hindent, houter⟩ := hopened
    have hvalue := run_value_of_lt (s := s₃) hlookup hflow
      (show s.indent < ((placeOf s).column : Int) by rw [hindent]; omega)
    rw [hskip] at hvalue
    refine ⟨s₂, _, htake, hrest₂, hstep _ hvalue hlast, ?_⟩
    exact {
      tokens_eq := by
        have hput : (putAt (putAt s₃.tokens (placeOf s).token .key) (placeOf s).token
            .blockMappingStart).toList = _ := toList_putAt _ s.tokens.toList _ htokens _
        rw [Array.toList_push, hput]
        simp [keyTokens]
      flow_eq := rfl
      keyAllowed_eq := rfl
      rest_eq := ⟨0, hlast⟩
      column_pos := Nat.add_pos_right _ Nat.one_pos
      indent_eq := by
        show ((s.cursor.column : Nat) : Int) = 0
        rw [hcolumn hflow]
        rfl
      outer_eq := by
        show s.indent :: s.outer = [-1]
        rw [hindent, houter]
      places := hleft }
  | false =>
    obtain ⟨hindent, houter⟩ := hopened
    have hflat : s.flow ≠ 0 ∨ ¬ s.indent < ((placeOf s).column : Int) := by
      refine (Nat.eq_zero_or_pos s.flow).symm.imp (·.ne') fun hflow => ?_
      rw [hindent, placeOf, hcolumn hflow]
      exact lt_irrefl _
    have hvalue := run_value_of_not (s := s₃) hlookup hflat
    rw [hskip] at hvalue
    refine ⟨s₂, _, htake, hrest₂, hstep _ hvalue hlast, ?_⟩
    exact {
      tokens_eq := by
        rw [Array.toList_push, htokens]
        simp [keyTokens]
      flow_eq := rfl
      keyAllowed_eq := rfl
      rest_eq := ⟨0, hlast⟩
      column_pos := Nat.add_pos_right _ Nat.one_pos
      indent_eq := hindent
      outer_eq := houter
      places := hleft }

/-- A short text in brackets, and the colon behind it. -/
lemma exists_reaches_key {t : String} (hshort : (quotedText t).length ≤ simpleKeyLimit)
    (hflow : 0 < flow) (h : At s ts flow flow true ((quotedText t).toList ++ ':' :: rest)) :
    ∃ s', Reaches s s' ∧ At s' (ts ++ keyTokens false t) flow flow false rest := by
  have htext : (quotedText t).toList = '"' :: (t.toList.flatMap quotedChar ++ ['"']) := by
    rw [quotedText, String.toList_ofList, List.cons_append]
  obtain ⟨s₁, hsettle, hat, hrest, hlength⟩ : ∃ s₁, settle.run s = .ok ((), s₁) ∧
      At s₁ ts flow flow true ((quotedText t).toList ++ ':' :: rest) ∧
      s₁.cursor.rest = (quotedText t).toList ++ ':' :: rest ∧
      s₁.cursor.rest.length ≤ s.cursor.rest.length := by
    rw [htext] at h ⊢
    exact exists_settled h (by decide) (by decide) (by decide)
  have hflow₁ : 0 < s₁.flow := hat.flow_eq.symm ▸ hflow
  obtain ⟨s₂, s', htake, hrest₂, hnext, hat'⟩ := exists_next_key hat.keyAllowed_eq
    (fun e he => hat.flow_eq.symm ▸ hat.places e he)
    (show HasOpened s₁ false from ⟨hat.indent_eq, hat.outer_eq⟩)
    (fun hzero => absurd hzero hflow₁.ne') hshort hrest (.inl hflow₁)
  rw [hat.tokens_eq, hat.flow_eq] at hat'
  refine ⟨s', .head ⟨?_, ?_⟩ (.single hnext), hat'⟩
  · rw [step, run_bind, hsettle]
    exact htake
  · rw [hrest, htext] at hlength
    rw [hrest₂]
    simp at hlength ⊢
    omega

/-! ### Lines of a block -/

/-- The scanner stands at the beginning of a line, where a key may start. -/
structure AtLine (s : Scanner) (ts : List Token) (first : Bool) (rest : List Char) : Prop where
  tokens_eq : s.tokens.toList = ts
  flow_eq : s.flow = 0
  keyAllowed_eq : s.keyAllowed = true
  rest_eq : s.cursor.rest = rest
  column_eq : s.cursor.column = 0
  opened : HasOpened s first
  places_eq : s.places = []

/-- What is to be read begins at once, or the text ends. -/
def BeginsToken (rest : List Char) : Prop :=
  ∀ c ∈ rest.head?, isInline c = true ∧ c ≠ ' ' ∧ c ≠ '#'

lemma run_toNextToken_stay (h : BeginsToken s.cursor.rest) (n : Nat) :
    (toNextToken (n + 1)).run s = .ok ((), s) := by
  rcases hrest : s.cursor.rest with _ | ⟨c, r⟩
  · have hskip : skipComment s.cursor = s.cursor := by
      simp [skipComment, Cursor.dropWhile, Cursor.span, hrest, Cursor.skip, Cursor.sees,
        Cursor.peek]
    have hbreak : lineBreak? s.cursor = none := by simp [lineBreak?, hrest]
    unfold toNextToken
    rw [run_bind, run_get]
    simp only [Except.bind, hskip, hbreak]
    rfl
  · obtain ⟨hc, hblank, hcomment⟩ := h c (by simp [hrest])
    rw [run_toNextToken (k := 0) hrest hc hblank hcomment, Cursor.past_zero]

/-- Over the end of a line outside of brackets. -/
lemma run_toNextToken_break {k : Nat} (hrest : s.cursor.rest = List.replicate k ' ' ++ '\n' :: rest)
    (hflow : s.flow = 0) (n : Nat) : (toNextToken (n + 1)).run s = (toNextToken n).run { s with
      cursor := ⟨rest, s.cursor.index + k + 1, s.cursor.line + 1, 0⟩, keyAllowed := true } := by
  have hspan : s.cursor.span (· == ' ') = (List.replicate k ' ', s.cursor.past k) :=
    Cursor.span_blanks hrest rfl rfl
  have hpast : (s.cursor.past k).rest = '\n' :: rest := Cursor.rest_past_blanks hrest
  have hskip : skipComment s.cursor = s.cursor.past k := by
    unfold skipComment Cursor.dropWhile
    rw [hspan]
    simp [Cursor.sees, Cursor.peek, hpast]
  have hbreak : lineBreak? (s.cursor.past k) =
      some ('\n', ⟨rest, s.cursor.index + k + 1, s.cursor.line + 1, 0⟩) := by
    simp [lineBreak?, Cursor.next, hpast, isBreak]
    exact ⟨rfl, rfl⟩
  conv_lhs => unfold toNextToken
  rw [run_bind, run_get]
  simp only [Except.bind, hskip, hbreak]
  rw [run_bind, run_moveTo]
  dsimp only [Except.bind]
  rw [run_bind, run_get]
  simp only [Except.bind, beq_iff_eq.mpr hflow, if_true]
  rw [run_bind, run_allowKey]
  rfl

/-- At the end of a line the scanner moves on to the next one; places for keys are left behind. -/
lemma exists_settled_line (h : At s ts 0 bound key ('\n' :: rest)) (hrest : BeginsToken rest) :
    ∃ s₁, settle.run s = .ok ((), s₁) ∧ AtLine s₁ ts false rest ∧
      s₁.cursor.rest.length < s.cursor.rest.length := by
  obtain ⟨j, hj⟩ := h.rest_eq
  let s₁ : Scanner := { s with
    cursor := ⟨rest, s.cursor.index + j + 1, s.cursor.line + 1, 0⟩, keyAllowed := true }
  have hlength : 0 < s.cursor.rest.length := by
    rw [hj]
    simp
  obtain ⟨n, hn⟩ := Nat.exists_eq_add_one_of_ne_zero hlength.ne'
  have htoken : (toNextToken (s.cursor.rest.length + 1)).run s = .ok ((), s₁) := by
    rw [run_toNextToken_break hj h.flow_eq, hn]
    exact run_toNextToken_stay (s := s₁) hrest n
  have hstale := run_dropStale (s := s₁) fun e he _ => h.optional e he
  have hnone : s₁.places.filter (fun e => !isStale s₁ e.2) = [] := by
    refine List.filter_eq_nil_iff.mpr fun e he => ?_
    have hline : e.2.line ≠ s.cursor.line + 1 := by
      have := (h.places e he).2.2
      omega
    simp [isStale, s₁, hline]
  rw [hnone] at hstale
  refine ⟨{ s₁ with places := [] }, ?_, ?_, ?_⟩
  · unfold settle
    rw [run_bind, run_get]
    dsimp only [Except.bind]
    rw [run_bind, htoken]
    dsimp only [Except.bind]
    rw [run_bind, hstale]
    exact run_unwindTo (.inr h.indent_eq.le)
  · exact ⟨h.tokens_eq, h.flow_eq, rfl, rfl, rfl, ⟨h.indent_eq, h.outer_eq⟩, rfl⟩
  · rw [hj]
    simp [s₁]
    omega

/-- A short text at the beginning of a line, and the colon behind it. -/
lemma exists_next_lineKey {t : String} {first : Bool}
    (hshort : (quotedText t).length ≤ simpleKeyLimit) (hgoes : endsWord rest.head? = true)
    (h : AtLine s ts first ((quotedText t).toList ++ ':' :: rest)) :
    ∃ s₂ s', takeToken.run s = .ok (true, s₂) ∧ s₂.cursor.rest = ':' :: rest ∧ Next s₂ s' ∧
      At s' (ts ++ keyTokens first t) 0 0 false rest := by
  have hkey := exists_next_key h.keyAllowed_eq (by simp [h.places_eq]) h.opened
    (fun _ => h.column_eq) hshort h.rest_eq (.inr hgoes)
  rwa [h.tokens_eq, h.flow_eq] at hkey

/-- A line begins with a key. -/
lemma exists_reaches_line {t : String} (hshort : (quotedText t).length ≤ simpleKeyLimit)
    (hgoes : endsWord rest.head? = true)
    (h : At s ts 0 bound key ('\n' :: ((quotedText t).toList ++ ':' :: rest))) :
    ∃ s', Reaches s s' ∧ At s' (ts ++ keyTokens false t) 0 0 false rest := by
  have htext : (quotedText t).toList = '"' :: (t.toList.flatMap quotedChar ++ ['"']) := by
    rw [quotedText, String.toList_ofList, List.cons_append]
  obtain ⟨s₁, hsettle, hline, hless⟩ := exists_settled_line h (by
    rw [htext]
    rintro _ ⟨⟩
    decide)
  obtain ⟨s₂, s', htake, hrest₂, hnext, hat⟩ := exists_next_lineKey hshort hgoes hline
  refine ⟨s', .head ⟨?_, ?_⟩ (.single hnext), hat⟩
  · rw [step, run_bind, hsettle]
    exact htake
  · rw [hline.rest_eq, htext] at hless
    rw [hrest₂]
    simp at hless ⊢
    omega

/-- A line begins with the mark of an item. -/
lemma exists_next_item (h : At s ts 0 bound key ('\n' :: '-' :: ' ' :: rest)) :
    ∃ s', Next s s' ∧ At s' (ts ++ [.blockEntry]) 0 0 true rest := by
  obtain ⟨s₁, hsettle, hline, hless⟩ := exists_settled_line h (by rintro _ ⟨⟩; decide)
  have hpeek := peek_of_rest hline.rest_eq
  have hnext : s₁.cursor.next.peek = some ' ' := by
    rw [Cursor.next_past hline.rest_eq (by decide), Cursor.peek, rest_past_one hline.rest_eq]
    rfl
  have hsep : isSeparator s₁ '-' = false ∧ isSeparator s₁ '.' = false := by
    simp [isSeparator, Cursor.sees, hpeek, atSeparator, hline.rest_eq]
  have hrun : takeToken.run s₁ = (do blockEntry; return true : Scan Bool).run s₁ := by
    unfold takeToken
    rw [run_bind, run_get]
    simp only [Except.bind, hpeek, hsep.1, hsep.2, hnext]
    rfl
  have henter : (enterBlock .blockSequenceStart).run s₁ = .ok ((), s₁) := by
    have hdeepen := run_deepen_of_not (s := s₁) s₁.cursor.column (by
      rw [hline.opened.1, hline.column_eq]
      exact lt_irrefl _)
    unfold enterBlock
    rw [run_bind, run_get]
    simp only [Except.bind, beq_iff_eq.mpr hline.flow_eq, hline.keyAllowed_eq, if_true,
      Bool.not_true, Bool.false_eq_true, if_false]
    rw [run_bind, hdeepen]
    rfl
  have hdrop : dropPlace.run s₁ = .ok ((), s₁) := by
    rw [run_dropPlace (by simp [Optional, hline.places_eq]), withoutPlace,
      hline.places_eq, List.filter_nil, ← hline.places_eq]
  have hallow : (allowKey true).run s₁ = .ok ((), s₁) := by
    rw [run_allowKey, ← hline.keyAllowed_eq]
  refine ⟨{ s₁ with cursor := s₁.cursor.past 1, tokens := s₁.tokens.push .blockEntry },
    ⟨?_, ?_⟩, ?_⟩
  · rw [step, run_bind, hsettle]
    dsimp only [Except.bind]
    rw [hrun, run_bind, blockEntry, run_bind, henter]
    dsimp only [Except.bind]
    rw [run_bind, hallow]
    dsimp only [Except.bind]
    rw [run_bind, hdrop, ← skip_one hline.rest_eq (by decide)]
    rfl
  · refine lt_of_le_of_lt (Nat.le_of_lt ?_) hless
    rw [rest_past_one hline.rest_eq, hline.rest_eq]
    exact Nat.lt_succ_self _
  · have hrest : (s₁.cursor.past 1).rest = ' ' :: rest := rest_past_one hline.rest_eq
    exact {
      tokens_eq := by simp [hline.tokens_eq]
      flow_eq := hline.flow_eq
      keyAllowed_eq := hline.keyAllowed_eq
      rest_eq := ⟨1, hrest⟩
      column_pos := Nat.add_pos_right _ Nat.one_pos
      indent_eq := hline.opened.1
      outer_eq := hline.opened.2
      places := by simp [hline.places_eq] }

lemma run_unwindTo_end (hflow : s.flow = 0) (hindent : s.indent = 0) (houter : s.outer = [-1]) :
    (unwindTo (-1)).run s =
      .ok ((), { s with tokens := s.tokens.push .blockEnd, indent := -1, outer := [] }) := by
  unfold unwindTo
  rw [run_bind, run_get]
  dsimp only [Except.bind]
  rw [houter, List.length_singleton, unwind, run_bind, run_get]
  have hdeep : (s.flow == 0 && decide ((-1 : Int) < s.indent)) = true := by
    rw [hflow, hindent]
    rfl
  simp only [Except.bind, hdeep, if_true]
  rw [run_bind, run_set, houter]
  dsimp only [Except.bind]
  rw [unwind, run_bind, run_get]
  dsimp only [Except.bind]
  rw [if_neg (by simp)]
  rfl

/-- Behind the last line the mapping ends, and the text. -/
lemma exists_step_end (h : At s ts 0 bound key ['\n']) :
    ∃ s', step.run s = .ok (false, s') ∧ s'.tokens.toList = ts ++ [.blockEnd, .streamEnd] := by
  obtain ⟨s₁, hsettle, hline, -⟩ := exists_settled_line h (by simp [BeginsToken])
  have hpeek : s₁.cursor.peek = none := by
    rw [Cursor.peek, hline.rest_eq]
    rfl
  have hunwind := run_unwindTo_end hline.flow_eq hline.opened.1 hline.opened.2
  have hdrop := run_dropPlace (s := { s₁ with
    tokens := s₁.tokens.push .blockEnd, indent := -1, outer := [] })
    (by simp [Optional, hline.places_eq])
  have hrun : takeToken.run s₁ = (do boundary .streamEnd 0; return false : Scan Bool).run s₁ := by
    unfold takeToken
    rw [run_bind, run_get]
    simp only [Except.bind, hpeek]
  refine ⟨{ s₁ with
    tokens := (s₁.tokens.push .blockEnd).push .streamEnd, indent := -1, outer := []
    places := s₁.places.filter (·.1 != s₁.flow), keyAllowed := false }, ?_, ?_⟩
  · rw [step, run_bind, hsettle]
    dsimp only [Except.bind]
    rw [hrun, run_bind, boundary, run_bind, hunwind]
    dsimp only [Except.bind]
    rw [run_bind, hdrop]
    rfl
  · simp [hline.tokens_eq]

end Scan

end Stencil.Yaml
