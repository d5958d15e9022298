import Mathlib.Data.List.Basic
import Stencil.Number.Decimal
import Stencil.Proofs.Files.Tree
import Stencil.Proofs.Text.Pieces
import Stencil.Text.Markup

/-!
Documents of XML 1.0, read character by character: elements with attributes, characters, and
references to characters. Declarations of types, comments, instructions and names beyond ASCII are
left out, so what is read here is well-formed, and not everything that is well-formed is read.

The machine takes any character where data may stand (`tree`); in a document each must be one that
XML has (`IsDocument`). Reading goes on behind what has been read (`run_append`), so a piece of
content can be read for itself: in front of markup (`Reads`), or wherever it stands (`Closed`),
which is so of an element as soon as its content reads (`Reads.element`). What the writers of data
and of attributes put down reads back as it was (`reads_escapeXml`, `run_quoteAttribute`), with line
ends in data made one.
-/

namespace Stencil.Xml

/-- A part of the content of an element. -/
inductive Item where
  | char (c : Char)
  | element (name : String) (attributes : List (String × String)) (content : List Item)

/-! ### Characters -/

/-- The characters that a document may have. -/
def isCharacter (c : Char) : Bool :=
  c == '\t' || c == '\n' || c == '\r' || (0x20 ≤ c.toNat && c.toNat ≤ 0xD7FF) ||
    (0xE000 ≤ c.toNat && c.toNat ≤ 0xFFFD) || 0x10000 ≤ c.toNat

/-- A text that a document may show. -/
def IsText (s : String) : Prop := s.toList.all isCharacter = true

instance (s : String) : Decidable (IsText s) :=
  inferInstanceAs (Decidable (s.toList.all isCharacter = true))

def isBlank (c : Char) : Bool := c == ' ' || c == '\t' || c == '\n' || c == '\r'

def startsName (c : Char) : Bool := c.isAlpha || c == '_'

def isNamePart (c : Char) : Bool := c.isAlphanum || c == '_' || c == '-' || c == '.'

/-- The character that a reference between an ampersand and a semicolon stands for. -/
def entity? (reference : List Char) : Option Char :=
  match reference with
  | '#' :: ds => do
    let n ← (Number.groupedDigits? ds).map Number.digitsValue
    let c := Char.ofNat n
    if !ds.contains '_' && ds.all Char.isDigit && c.toNat == n && isCharacter c then some c
    else none
  | _ =>
    match String.ofList reference with
    | "amp" => some '&'
    | "lt" => some '<'
    | "gt" => some '>'
    | "quot" => some '"'
    | "apos" => some '\''
    | _ => none

/-! ### The machine -/

/-- What has been read of a start tag. -/
structure Tag where
  name : List Char
  attributes : List (String × String)

def Tag.add (t : Tag) (key value : List Char) : Tag :=
  { t with attributes := t.attributes ++ [(String.ofList key, String.ofList value)] }

/-- An element whose end has not been read. -/
structure Frame where
  name : String
  attributes : List (String × String)
  content : List Item

def Frame.extend (f : Frame) (items : List Item) : Frame :=
  { f with content := f.content ++ items }

/-- Where reading stands. -/
inductive Place where
  /-- Between tags. -/
  | content
  | reference (text : List Char)
  /-- Behind the bracket that opens a tag. -/
  | bracket
  | name (text : List Char)
  /-- In a start tag, behind a blank. -/
  | gap (tag : Tag)
  | key (tag : Tag) (text : List Char)
  /-- Behind the sign between the name and the value of an attribute. -/
  | sign (tag : Tag) (key : List Char)
  | value (tag : Tag) (key : List Char) (quote : Char) (text : List Char)
  | valueReference (tag : Tag) (key : List Char) (quote : Char) (text reference : List Char)
  /-- Behind the value of an attribute. -/
  | behind (tag : Tag)
  | ending (text : List Char)

structure State where
  place : Place := .content
  /-- The elements that are open, the innermost first. -/
  opened : List Frame := []
  root : Option Item := none

namespace State

/-- One more item in the innermost element. -/
def push (s : State) (item : Item) : Option State :=
  match s.opened with
  | [] => none
  | f :: fs => some { s with place := .content, opened := f.extend [item] :: fs }

def enter (s : State) (t : Tag) : State :=
  { s with place := .content, opened := ⟨String.ofList t.name, t.attributes, []⟩ :: s.opened }

/-- The end of the innermost element, if it has the name. -/
def leave (s : State) (name : List Char) : Option State :=
  match s.opened with
  | [] => none
  | f :: fs =>
    if f.name = String.ofList name then
      let item := Item.element f.name f.attributes f.content
      match fs with
      | [] => some { place := .content, opened := [], root := some item }
      | _ => push { s with opened := fs } item
    else none

/-- What may come in a start tag where no blank is needed. -/
def close (s : State) (t : Tag) (c : Char) : Option State :=
  if c == '>' then some (s.enter t)
  else if isBlank c then some { s with place := .gap t }
  else none

end State

/-- Read a character. -/
def step (s : State) (c : Char) : Option State :=
  match s.place with
  | .content =>
    if c == '<' then some { s with place := .bracket }
    else if c == '&' then some { s with place := .reference [] }
    else if c == '>' then none
    else if s.opened.isEmpty then if isBlank c then some s else none
    else s.push (.char c)
  | .reference r =>
    if c == ';' then (entity? r).bind fun d => s.push (.char d)
    else some { s with place := .reference (r ++ [c]) }
  | .bracket =>
    if c == '/' then some { s with place := .ending [] }
    else if startsName c && !(s.opened.isEmpty && s.root.isSome) then
      some { s with place := .name [c] }
    else none
  | .name n =>
    if isNamePart c then some { s with place := .name (n ++ [c]) } else s.close ⟨n, []⟩ c
  | .gap t => if startsName c then some { s with place := .key t [c] } else s.close t c
  | .key t k =>
    if isNamePart c then some { s with place := .key t (k ++ [c]) }
    else if c == '=' && !(t.attributes.map Prod.fst).contains (String.ofList k) then
      some { s with place := .sign t k }
    else none
  | .sign t k =>
    if c == '"' || c == '\'' then some { s with place := .value t k c [] } else none
  | .value t k q v =>
    if c == q then
      some { s with place := .behind (t.add k v) }
    else if c == '<' then none
    else if c == '&' then some { s with place := .valueReference t k q v [] }
    else some { s with place := .value t k q (v ++ [if isBlank c then ' ' else c]) }
  | .valueReference t k q v r =>
    if c == ';' then
      (entity? r).map fun d => { s with place := .value t k q (v ++ [d]) }
    else some { s with place := .valueReference t k q v (r ++ [c]) }
  | .behind t => s.close t c
  | .ending n =>
    if isNamePart c then some { s with place := .ending (n ++ [c]) }
    else if c == '>' then s.leave n
    else none

def run (s : State) : List Char → Option State
  | [] => some s
  | c :: cs => (step s c).bind fun s => run s cs

/-- The line that a document may begin with. -/
def declaration : String := "<?xml version=\"1.0\" encoding=\"UTF-8\"?>"

/-- The root of what a text writes down, line ends being made one first. -/
def tree (text : String) : Option Item := do
  let cs := Files.Tree.unifyLines text.toList
  match ← run {} ((Text.dropLead? declaration.toList cs).getD cs) with
  | ⟨.content, [], root⟩ => root
  | _ => none

/-- A text is a document with a root. -/
structure IsDocument (text : String) (root : Item) : Prop where
  characters : IsText text
  reads : tree text = some root

/-! ### Running -/

lemma run_append (s : State) (as bs : List Char) :
    run s (as ++ bs) = (run s as).bind fun s => run s bs := by
  induction as generalizing s with
  | nil => rfl
  | cons a as ih => simp only [List.cons_append, run, Option.bind_assoc, ih]

lemma run_cons_of_step {s s' : State} {c : Char} (h : step s c = some s') (cs : List Char) :
    run s (c :: cs) = run s' cs := by
  rw [run, h, Option.bind_some]

/-- Reading a text whose line ends are still to be made one. -/
def feed (s : State) (cs : List Char) : Option State := run s (Files.Tree.unifyLines cs)

lemma feed_append {s s' : State} {as : List Char} (hreturn : NoReturn as)
    (h : run s as = some s') (bs : List Char) : feed s (as ++ bs) = feed s' bs := by
  rw [feed, Files.Tree.unifyLines_append hreturn, run_append, h, Option.bind_some, feed]

/-! ### Data -/

open Text (xmlChar attributeChar escapeXml quoteAttribute)

/-- The characters of a text, with newlines for line ends of all kinds. -/
def data (s : String) : List Item := (Files.Tree.unifyLines s.toList).map .char

variable {fs : List Frame} {f : Frame} {r : Option Item} {xs ys : List Item}

lemma Frame.extend_nil (f : Frame) : f.extend [] = f := by
  rw [extend, List.append_nil]

lemma Frame.extend_extend (f : Frame) (xs ys : List Item) :
    (f.extend xs).extend ys = f.extend (xs ++ ys) := by
  rw [extend, extend, extend, List.append_assoc]

lemma run_xmlChar (c : Char) :
    run ⟨.content, f :: fs, r⟩ (xmlChar c) = some ⟨.content, f.extend [.char c] :: fs, r⟩ := by
  unfold xmlChar
  split
  · rfl
  · rfl
  · rfl
  · rename_i hamp hlt hgt
    simp [run, step, State.push, show c ≠ '&' from hamp, show c ≠ '<' from hlt,
      show c ≠ '>' from hgt]

lemma run_flatMap_xmlChar (cs : List Char) :
    run ⟨.content, f :: fs, r⟩ (cs.flatMap xmlChar) =
      some ⟨.content, f.extend (cs.map .char) :: fs, r⟩ := by
  induction cs generalizing f with
  | nil => rw [List.map_nil, f.extend_nil]; rfl
  | cons c cs ih =>
    rw [List.flatMap_cons, run_append, run_xmlChar, Option.bind_some, ih, f.extend_extend]
    rfl

lemma noReturn_xmlChar {c : Char} (h : c ≠ '\r') : NoReturn (xmlChar c) := by
  unfold xmlChar
  split
  · decide
  · decide
  · decide
  · exact .cons h (by decide)

lemma head?_xmlChar {c : Char} (h : c ≠ '\n') (cs : List Char) :
    (xmlChar c ++ cs).head? ≠ some '\n' := by
  unfold xmlChar
  split <;> simp [h]

/-- No line end begins or goes where data is written. -/
lemma unifyLines_flatMap_xmlChar (cs : List Char) :
    Files.Tree.unifyLines (cs.flatMap xmlChar) = (Files.Tree.unifyLines cs).flatMap xmlChar := by
  fun_induction Files.Tree.unifyLines cs with
  | case1 => rfl
  | case2 cs ih => exact congrArg ('\n' :: ·) ih
  | case3 cs hnext ih =>
    rw [List.flatMap_cons, List.flatMap_cons, ← ih]
    refine Files.Tree.unifyLines_return ?_
    cases cs with
    | nil => simp
    | cons d ds => exact head?_xmlChar (fun hd => hnext ds (by rw [hd])) _
  | case4 c cs _ hc ih =>
    rw [List.flatMap_cons, List.flatMap_cons, ← ih,
      Files.Tree.unifyLines_append (noReturn_xmlChar hc)]

/-! ### Attributes -/

section Attributes

variable {t : Tag} {k : List Char} {q : Char}

/-- A value is read character by character, each in its own spelling. -/
lemma run_value {spelled : Char → List Char} {cs : List Char}
    (h : ∀ c ∈ cs, ∀ v, run ⟨.value t k q v, fs, r⟩ (spelled c) =
      some ⟨.value t k q (v ++ [c]), fs, r⟩) (v : List Char) :
    run ⟨.value t k q v, fs, r⟩ (cs.flatMap spelled) = some ⟨.value t k q (v ++ cs), fs, r⟩ := by
  induction cs generalizing v with
  | nil => rw [List.append_nil]; rfl
  | cons c cs ih =>
    obtain ⟨hc, hcs⟩ := List.forall_mem_cons.mp h
    rw [List.flatMap_cons, run_append, hc, Option.bind_some, ih hcs, List.append_assoc]
    rfl

lemma run_attributeChar (hquote : q = '"' ∨ q = '\'') {c : Char} (hc : c ≠ q) (v : List Char) :
    run ⟨.value t k q v, fs, r⟩ (attributeChar c) = some ⟨.value t k q (v ++ [c]), fs, r⟩ := by
  rcases hquote with rfl | rfl
  all_goals
    unfold attributeChar xmlChar
    split
    · rfl
    · rfl
    · rfl
    · rename_i hnewline hreturn htab
      split
      · rfl
      · rfl
      · rfl
      · rename_i hamp hlt _
        by_cases hspace : c = ' '
        · subst hspace
          rfl
        · simp [run, step, isBlank, hc, hspace, show c ≠ '&' from hamp, show c ≠ '<' from hlt,
            show c ≠ '\n' from hnewline, show c ≠ '\r' from hreturn, show c ≠ '\t' from htab]

lemma run_quote (v : List Char) :
    run ⟨.value t k q v, fs, r⟩ [q] = some ⟨.behind (t.add k v), fs, r⟩ := by
  simp [run, step]

/-- A quote stands only where one is written. -/
lemma mem_attributeChar {c : Char} (hquote : q = '"' ∨ q = '\'') :
    q ∈ attributeChar c ↔ c = q := by
  rcases hquote with rfl | rfl
  all_goals
    unfold attributeChar xmlChar
    split
    · decide
    · decide
    · decide
    · split
      · decide
      · decide
      · decide
      · rw [List.mem_singleton, eq_comm]

/-- A character in a value that stands in quotes of a kind. -/
def valueChar (q c : Char) : List Char := if c = q then "&quot;".toList else attributeChar c

lemma replace_quote (cs : List Char) :
    (Text.replace "\"" "&quot;" (String.ofList (cs.flatMap attributeChar))).toList =
      cs.flatMap (valueChar '"') := by
  have hreplaced : (Text.replace "\"" "&quot;" (String.ofList (cs.flatMap attributeChar))).toList =
      (cs.flatMap attributeChar).flatMap fun d => if d = '"' then "&quot;".toList else [d] := by
    rw [Text.replace, if_neg (by decide)]
    simp only [String.toList_ofList]
    exact Text.replaceFuel_singleton '"' _ String.length_ofList.ge
  rw [hreplaced, List.flatMap_assoc]
  refine List.flatMap_congr fun c _ => ?_
  unfold valueChar
  split
  · rename_i hc
    subst hc
    rfl
  · rename_i hc
    refine (List.flatMap_congr fun d hd => if_neg ?_).trans (List.flatMap_singleton' _)
    rintro rfl
    exact hc ((mem_attributeChar (.inl rfl)).mp hd)

/-- A value stands in one kind of quotes, and single ones only where it holds none. -/
lemma exists_toList_quoteAttribute (s : String) :
    ∃ q, (q = '"' ∨ q = '\'' ∧ '\'' ∉ s.toList) ∧
      (quoteAttribute s).toList = [q] ++ s.toList.flatMap (valueChar q) ++ [q] := by
  have hcontains {q : Char} (hquote : q = '"' ∨ q = '\'') :
      (s.toList.flatMap attributeChar).contains q = decide (q ∈ s.toList) := by
    simp [mem_attributeChar hquote]
  have hbare {q : Char} (hq : q ∉ s.toList) :
      s.toList.flatMap (valueChar q) = s.toList.flatMap attributeChar :=
    List.flatMap_congr fun c hc => if_neg (ne_of_mem_of_not_mem hc hq)
  unfold quoteAttribute
  dsimp only
  rw [hcontains (.inl rfl), hcontains (.inr rfl)]
  split_ifs with hdouble hsingle
  · exact ⟨'"', .inl rfl, by simp [hbare (by simpa using hdouble)]⟩
  · have hq : '\'' ∉ s.toList := by simpa using hsingle
    exact ⟨'\'', .inr ⟨rfl, hq⟩, by simp [hbare hq]⟩
  · exact ⟨'"', .inl rfl, by simp [replace_quote]⟩

/-- The value of an attribute is read as it was. -/
lemma run_quoteAttribute (s : String) :
    run ⟨.sign t k, fs, r⟩ (quoteAttribute s).toList =
      some ⟨.behind (t.add k s.toList), fs, r⟩ := by
  obtain ⟨q, hq, hs⟩ := exists_toList_quoteAttribute s
  have hquote : q = '"' ∨ q = '\'' := hq.imp_right And.left
  have hopen : run ⟨.sign t k, fs, r⟩ [q] = some ⟨.value t k q [], fs, r⟩ := by
    rcases hquote with rfl | rfl <;> rfl
  have hvalue : run ⟨.value t k q [], fs, r⟩ (s.toList.flatMap (valueChar q)) =
      some ⟨.value t k q s.toList, fs, r⟩ := by
    refine run_value (fun c hc v => ?_) []
    unfold valueChar
    split
    · rename_i he
      obtain rfl | ⟨rfl, hno⟩ := hq
      · rw [he]
        rfl
      · exact absurd (he ▸ hc) hno
    · rename_i he
      exact run_attributeChar hquote he v
  rw [hs, run_append, run_append, hopen, Option.bind_some, hvalue, Option.bind_some, run_quote]

end Attributes

/-! ### Tags -/

def isName (n : String) : Bool :=
  match n.toList with
  | [] => false
  | c :: cs => startsName c && cs.all isNamePart

/-- A tag that may stand in a document: names are names, and no attribute comes twice. -/
def isTag (name : String) (keys : List String) : Bool :=
  isName name && keys.all isName && decide keys.Nodup

def attributeText (a : String × String) : String := " " ++ a.1 ++ "=" ++ quoteAttribute a.2

def startTag (name : String) (attributes : List (String × String)) : String :=
  "<" ++ name ++ String.join (attributes.map attributeText) ++ ">"

def endTag (name : String) : String := "</" ++ name ++ ">"

section Tags

variable {n : String} {t : Tag}

lemma isNamePart_of_startsName {c : Char} (h : startsName c = true) : isNamePart c = true := by
  rcases Bool.or_eq_true_iff.mp h with h | h
  · simp [isNamePart, Char.isAlphanum, h]
  · simp [isNamePart, h]

lemma isName_cases (h : isName n = true) :
    ∃ c cs, n.toList = c :: cs ∧ startsName c = true ∧ ∀ d ∈ cs, isNamePart d = true := by
  unfold isName at h
  split at h
  · cases h
  · rename_i c cs hn
    obtain ⟨hc, hcs⟩ := Bool.and_eq_true_iff.mp h
    exact ⟨c, cs, hn, hc, List.all_eq_true.mp hcs⟩

lemma noReturn_of_isName (h : isName n = true) : NoReturn n.toList := by
  obtain ⟨c, cs, hn, hc, hcs⟩ := isName_cases h
  rw [hn]
  rintro (_ | ⟨_, hmem⟩)
  · cases hc
  · cases hcs '\r' hmem

/-- A name is read where names are gathered. -/
lemma run_name (place : List Char → Place)
    (hstep : ∀ m c, isNamePart c = true →
      step ⟨place m, fs, r⟩ c = some ⟨place (m ++ [c]), fs, r⟩)
    {cs : List Char} (h : ∀ d ∈ cs, isNamePart d = true) (m : List Char) :
    run ⟨place m, fs, r⟩ cs = some ⟨place (m ++ cs), fs, r⟩ := by
  induction cs generalizing m with
  | nil => rw [List.append_nil]; rfl
  | cons c cs ih =>
    obtain ⟨hc, hcs⟩ := List.forall_mem_cons.mp h
    rw [run_cons_of_step (hstep m c hc), ih hcs, List.append_assoc]
    rfl

lemma run_attributeText {a : String × String} (hname : isName a.1 = true)
    (hnew : a.1 ∉ t.attributes.map Prod.fst) :
    run ⟨.behind t, fs, r⟩ (attributeText a).toList =
      some ⟨.behind (t.add a.1.toList a.2.toList), fs, r⟩ := by
  obtain ⟨c, cs, hn, hc, hcs⟩ := isName_cases hname
  have hkey : run ⟨.behind t, fs, r⟩ (' ' :: a.1.toList) = some ⟨.key t a.1.toList, fs, r⟩ := by
    have hgap : step ⟨.behind t, fs, r⟩ ' ' = some ⟨.gap t, fs, r⟩ := rfl
    have hstart : step ⟨.gap t, fs, r⟩ c = some ⟨.key t [c], fs, r⟩ := if_pos hc
    rw [hn, run_cons_of_step hgap, run_cons_of_step hstart,
      run_name (.key t) (fun _ _ hd => if_pos hd) hcs]
    rfl
  have hsign : run ⟨.key t a.1.toList, fs, r⟩ ['='] = some ⟨.sign t a.1.toList, fs, r⟩ := by
    have hne : isNamePart '=' = false := by decide
    simp [run, step, hne, hnew]
  have hsplit : (attributeText a).toList =
      ' ' :: a.1.toList ++ ['='] ++ (quoteAttribute a.2).toList := by
    simp [attributeText]
  rw [hsplit, run_append, run_append, hkey, Option.bind_some, hsign, Option.bind_some,
    run_quoteAttribute]

lemma run_attributes {as : List (String × String)} (hnames : ∀ a ∈ as, isName a.1 = true)
    (hnodup : ((t.attributes ++ as).map Prod.fst).Nodup) :
    run ⟨.behind t, fs, r⟩ (as.flatMap fun a => (attributeText a).toList) =
      some ⟨.behind ⟨t.name, t.attributes ++ as⟩, fs, r⟩ := by
  induction as generalizing t with
  | nil => rw [List.append_nil]; rfl
  | cons a as ih =>
    obtain ⟨ha, has⟩ := List.forall_mem_cons.mp hnames
    have hadd : t.add a.1.toList a.2.toList = ⟨t.name, t.attributes ++ [a]⟩ := by
      simp [Tag.add]
    have hnew : a.1 ∉ t.attributes.map Prod.fst := by
      rw [List.map_append, List.map_cons] at hnodup
      exact fun hmem => (List.nodup_append.mp hnodup).2.2 _ hmem _ List.mem_cons_self rfl
    rw [List.flatMap_cons, run_append, run_attributeText ha hnew, Option.bind_some, hadd,
      ih has (by simpa using hnodup), List.append_assoc]
    rfl

/-- Behind the name, a start tag goes on as behind an attribute. -/
lemma run_name_cons {c : Char} (h : isNamePart c = false) (m cs : List Char) :
    run ⟨.name m, fs, r⟩ (c :: cs) = run ⟨.behind ⟨m, []⟩, fs, r⟩ (c :: cs) := by
  simp [run, step, h, State.close, State.enter]

variable {name : String} {attributes : List (String × String)}

lemma toList_startTag : (startTag name attributes).toList =
    '<' :: name.toList ++ (attributes.flatMap fun a => (attributeText a).toList) ++ ['>'] := by
  simp [startTag, String.toList_join, List.flatMap_map]

lemma run_startTag (htag : isTag name (attributes.map Prod.fst) = true)
    (hplace : fs = [] → r = none) :
    run ⟨.content, fs, r⟩ (startTag name attributes).toList =
      some ⟨.content, ⟨name, attributes, []⟩ :: fs, r⟩ := by
  obtain ⟨⟨hname, hkeys⟩, hnodup⟩ : (isName name = true ∧
      ∀ a ∈ attributes, isName a.1 = true) ∧ (attributes.map Prod.fst).Nodup := by
    simpa [isTag] using htag
  obtain ⟨c, cs, hn, hc, hcs⟩ := isName_cases hname
  have hopen : run ⟨.content, fs, r⟩ ('<' :: name.toList) =
      some ⟨.name name.toList, fs, r⟩ := by
    have hbracket : step ⟨.content, fs, r⟩ '<' = some ⟨.bracket, fs, r⟩ := rfl
    have hstart : step ⟨.bracket, fs, r⟩ c = some ⟨.name [c], fs, r⟩ := by
      have hslash : c ≠ '/' := by
        rintro rfl
        cases hc
      have hroot : (fs.isEmpty && r.isSome) = false := by
        cases fs with
        | nil => rw [hplace rfl]; rfl
        | cons => rfl
      simp [step, hslash, hc, hroot]
    rw [hn, run_cons_of_step hbracket, run_cons_of_step hstart,
      run_name .name (fun _ _ hd => if_pos hd) hcs]
    rfl
  have hbehind : run ⟨.name name.toList, fs, r⟩
      ((attributes.flatMap fun a => (attributeText a).toList) ++ ['>']) =
      run ⟨.behind ⟨name.toList, []⟩, fs, r⟩
        ((attributes.flatMap fun a => (attributeText a).toList) ++ ['>']) := by
    cases attributes with
    | nil => exact run_name_cons (by decide) _ _
    | cons a as =>
      have hblank : (attributeText a).toList = ' ' :: (a.1.toList ++ '=' ::
          (quoteAttribute a.2).toList) := by
        simp [attributeText]
      rw [List.flatMap_cons, hblank, List.cons_append, List.cons_append]
      exact run_name_cons (by decide) _ _
  rw [toList_startTag, List.append_assoc, run_append, hopen, Option.bind_some, hbehind, run_append,
    run_attributes hkeys (by simpa using hnodup), Option.bind_some]
  simp [run, step, State.close, State.enter]

/-- The end of the innermost element is read where that is inside another one, and at the root. -/
lemma run_endTag (h : isName name = true) :
    run ⟨.content, ⟨name, attributes, xs⟩ :: fs, r⟩ (endTag name).toList =
      State.leave ⟨.ending name.toList, ⟨name, attributes, xs⟩ :: fs, r⟩ name.toList := by
  obtain ⟨c, cs, hn, hc, hcs⟩ := isName_cases h
  have hname : ∀ d ∈ name.toList, isNamePart d = true := by
    rw [hn]
    exact List.forall_mem_cons.mpr ⟨isNamePart_of_startsName hc, hcs⟩
  have hopen (s : State) (hs : s.place = .content) :
      run s ['<', '/'] = some { s with place := .ending [] } := by
    obtain ⟨place, opened, root⟩ := s
    obtain rfl := hs
    rfl
  have hsplit : (endTag name).toList = ['<', '/'] ++ (name.toList ++ ['>']) := by
    simp [endTag]
  rw [hsplit, run_append, hopen _ rfl, Option.bind_some, run_append,
    run_name .ending (fun _ _ hd => if_pos hd) hname, Option.bind_some]
  simp [run, step, show isNamePart '>' = false by decide]

end Tags

/-! ### Content -/

/-- What is read as items in front of markup. -/
def Reads (cs : List Char) (items : List Item) : Prop :=
  ∀ f fs r rest, feed ⟨.content, f :: fs, r⟩ (cs ++ '<' :: rest) =
    feed ⟨.content, f.extend items :: fs, r⟩ ('<' :: rest)

/-- What is read as items wherever it stands. -/
def Closed (cs : List Char) (items : List Item) : Prop :=
  ∀ f fs r rest, feed ⟨.content, f :: fs, r⟩ (cs ++ rest) =
    feed ⟨.content, f.extend items :: fs, r⟩ rest

variable {as bs : List Char}

lemma Closed.reads (h : Closed as xs) : Reads as xs := fun f fs r rest => h f fs r ('<' :: rest)

lemma Closed.append (ha : Closed as xs) (hb : Closed bs ys) : Closed (as ++ bs) (xs ++ ys) := by
  intro f fs r rest
  rw [List.append_assoc, ha, hb, f.extend_extend]

lemma Closed.nil : Closed [] [] := by
  intro f fs r rest
  rw [List.nil_append, f.extend_nil]

lemma reads_escapeXml (s : String) : Reads (escapeXml s).toList (data s) := by
  intro f fs r rest
  rw [escapeXml, String.toList_ofList, feed, Files.Tree.unifyLines_append_cons (by decide),
    unifyLines_flatMap_xmlChar, run_append, run_flatMap_xmlChar, Option.bind_some]
  rfl

/-- Data without carriage returns reads wherever it stands. -/
lemma closed_flatMap_xmlChar {cs : List Char} (h : NoReturn cs) :
    Closed (cs.flatMap xmlChar) (cs.map .char) := by
  intro f fs r rest
  exact feed_append (.flatMap fun c hc => noReturn_xmlChar (ne_of_mem_of_not_mem hc h))
    (run_flatMap_xmlChar cs) rest

variable {name : String} {attributes : List (String × String)}

lemma noReturn_quoteAttribute (s : String) : NoReturn (quoteAttribute s).toList := by
  obtain ⟨q, hq, hs⟩ := exists_toList_quoteAttribute s
  have hquote : NoReturn [q] := by
    rcases hq with rfl | ⟨rfl, -⟩ <;> decide
  rw [hs]
  refine (hquote.append (.flatMap fun c _ => ?_)).append hquote
  unfold valueChar attributeChar
  split
  · decide
  · split
    · decide
    · decide
    · decide
    · rename_i hreturn _
      exact noReturn_xmlChar hreturn

lemma noReturn_startTag (htag : isTag name (attributes.map Prod.fst) = true) :
    NoReturn (startTag name attributes).toList := by
  obtain ⟨⟨hname, hkeys⟩, -⟩ : (isName name = true ∧
      ∀ a ∈ attributes, isName a.1 = true) ∧ (attributes.map Prod.fst).Nodup := by
    simpa [isTag] using htag
  have hattribute (a : String × String) (ha : a ∈ attributes) :
      NoReturn (attributeText a).toList :=
    .string (.string (.string (by decide) (noReturn_of_isName (hkeys a ha))) (by decide))
      (noReturn_quoteAttribute a.2)
  rw [toList_startTag]
  exact ((NoReturn.cons (by decide) (noReturn_of_isName hname)).append
    (.flatMap hattribute)).append (by decide)

lemma noReturn_endTag (h : isName name = true) : NoReturn (endTag name).toList :=
  .string (.string (by decide) (noReturn_of_isName h)) (by decide)

/-- What is read up to the end of an element whose content reads. -/
lemma Reads.feed_element (hbody : Reads as xs) (htag : isTag name (attributes.map Prod.fst) = true)
    (hplace : fs = [] → r = none) (rest : List Char) :
    feed ⟨.content, fs, r⟩
      ((startTag name attributes).toList ++ as ++ (endTag name).toList ++ rest) =
      (State.leave ⟨.ending name.toList, ⟨name, attributes, xs⟩ :: fs, r⟩ name.toList).bind
        fun s => feed s rest := by
  have hname : isName name = true := by
    simp only [isTag, Bool.and_eq_true] at htag
    exact htag.1.1
  have hend : (endTag name).toList = '<' :: ('/' :: name.toList ++ ['>']) := by
    simp [endTag]
  calc feed ⟨.content, fs, r⟩
        ((startTag name attributes).toList ++ as ++ (endTag name).toList ++ rest)
      = feed ⟨.content, ⟨name, attributes, []⟩ :: fs, r⟩
          (as ++ ((endTag name).toList ++ rest)) := by
        rw [List.append_assoc, List.append_assoc,
          feed_append (noReturn_startTag htag) (run_startTag htag hplace)]
    _ = feed ⟨.content, ⟨name, attributes, xs⟩ :: fs, r⟩ ((endTag name).toList ++ rest) := by
        rw [hend, List.cons_append, hbody]
        rfl
    _ = _ := by
        rw [feed, Files.Tree.unifyLines_append (noReturn_endTag hname), run_append,
          run_endTag hname]
        rfl

/-- **Elements are read back.** An element reads wherever it stands if its content reads in front
of the tag that ends it. -/
theorem Reads.element (hbody : Reads as xs) (htag : isTag name (attributes.map Prod.fst) = true) :
    Closed ((startTag name attributes).toList ++ as ++ (endTag name).toList)
      [.element name attributes xs] := by
  intro f fs r rest
  rw [hbody.feed_element htag fun h => absurd h (List.cons_ne_nil f fs)]
  simp [State.leave, State.push]

/-- **Documents are read back**: one element behind the declaration. -/
theorem Reads.document {text : String} (hbody : Reads as xs)
    (htag : isTag name (attributes.map Prod.fst) = true)
    (h : text.toList = declaration.toList ++ ('\n' ::
      ((startTag name attributes).toList ++ as ++ (endTag name).toList))) :
    tree text = some (.element name attributes xs) := by
  have hroot : feed {} ('\n' ::
      ((startTag name attributes).toList ++ as ++ (endTag name).toList)) =
      some ⟨.content, [], some (.element name attributes xs)⟩ := by
    have hblank : run {} ['\n'] = some {} := rfl
    have helement :
        feed {} ((startTag name attributes).toList ++ as ++ (endTag name).toList ++ []) = _ :=
      hbody.feed_element htag (fun _ => rfl) []
    rw [List.append_nil] at helement
    refine (feed_append (by decide) hblank _).trans (helement.trans ?_)
    simp [State.leave, feed, run, Files.Tree.unifyLines]
  have hlead : Text.dropLead? declaration.toList (Files.Tree.unifyLines text.toList) =
      some (Files.Tree.unifyLines ('\n' ::
        ((startTag name attributes).toList ++ as ++ (endTag name).toList))) := by
    rw [h, Files.Tree.unifyLines_append (by decide)]
    exact Text.dropLead?_eq_some_iff.mpr rfl
  unfold tree
  dsimp only
  rw [hlead, Option.getD_some, ← feed, hroot]
  rfl

/-! ### Texts that documents may show -/

lemma isText_append {s t : String} : IsText (s ++ t) ↔ IsText s ∧ IsText t := by
  rw [IsText, String.toList_append, List.all_append, Bool.and_eq_true]
  rfl

lemma isText_intercalate {sep : String} (hsep : IsText sep) {ts : List String} :
    IsText (sep.intercalate ts) ↔ ∀ t ∈ ts, IsText t := by
  have hsep : sep.toList.all isCharacter = true := hsep
  unfold IsText
  rw [String.toList_intercalate]
  induction ts with
  | nil => simp
  | cons t ts ih =>
    rcases ts with _ | ⟨u, us⟩
    · simp [List.intercalate_singleton]
    · rw [List.map_cons, List.map_cons, List.intercalate_cons_cons, List.all_append,
        List.all_append, hsep, Bool.and_true, Bool.and_eq_true, List.forall_mem_cons]
      exact and_congr_right fun _ => ih

/-- Characters may be shown, however they are spelled, if they may be themselves. -/
lemma all_flatMap {spelled : Char → List Char}
    (hspelled : ∀ c, (spelled c).all isCharacter = isCharacter c) (cs : List Char) :
    (cs.flatMap spelled).all isCharacter = cs.all isCharacter := by
  rw [List.all_flatMap]
  exact congrArg cs.all (funext hspelled)

lemma all_xmlChar (c : Char) : (xmlChar c).all isCharacter = isCharacter c := by
  unfold xmlChar
  split
  · rfl
  · rfl
  · rfl
  · simp

lemma all_valueChar {q : Char} (hq : isCharacter q = true) (c : Char) :
    (valueChar q c).all isCharacter = isCharacter c := by
  unfold valueChar attributeChar
  split
  · rename_i hc
    rw [hc, hq]
    rfl
  · split
    · rfl
    · rfl
    · rfl
    · exact all_xmlChar _

lemma isText_escapeXml {s : String} : IsText (escapeXml s) ↔ IsText s := by
  unfold IsText escapeXml
  rw [String.toList_ofList, all_flatMap all_xmlChar]

lemma isText_quoteAttribute {s : String} : IsText (quoteAttribute s) ↔ IsText s := by
  obtain ⟨q, hq, hs⟩ := exists_toList_quoteAttribute s
  have hquote : isCharacter q = true := by
    rcases hq with rfl | ⟨rfl, -⟩ <;> rfl
  unfold IsText
  rw [hs, List.all_append, List.all_append, all_flatMap (all_valueChar hquote)]
  simp [hquote]

end Stencil.Xml
