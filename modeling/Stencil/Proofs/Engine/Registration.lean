import Stencil.Engine.Basic
import Stencil.Proofs.Evaluation.Course
import Stencil.Proofs.Template.Quoted
import Stencil.Proofs.Template.Reports

/-!
Which operators can be used once they are registered, and what a plugin registers.

More names can be registered than templates can use operators by: names with capital letters or
letters beyond ASCII, and `context`. The probe for a name is the least template that applies an
operator by it. It is read as the comparison by the name exactly if the name is usable
(`probes_iff`); its evaluation then applies what was registered under the name last to the value of
`x`, and decides nothing else.

A plugin is refused before anything is registered, or all its operators are; they stay also when its
hook fails behind them (`load_settled`).
-/

namespace Stencil

/-! ### Probes -/

/-- A choice by an operator applied to `x`. -/
def probe (operator : String) : String :=
  "[#IF \x7b\x7bx\x7d\x7d #" ++ operator ++ "]a[ELSE]b[END IF]"

/-- A probe for a name is read as the comparison by it, if operators can be used by the name. -/
lemma parsesTo_probe {name : String} (h : Operators.IsUsable name) :
    ParsesTo (probe name) [.conditional (.compare "x" name .none .empty)
      [.text "a" .empty] [.text "b" .empty] .empty] := by
  have hpath : IsPath "x" := rfl
  have hchoice := parsesTo_choice (Condition.compare_readAs hpath h .none .empty)
  have hsource : "[#IF " ++ (Condition.compare "x" name .none .empty).written ++
      "]a[ELSE]b[END IF]" = probe name := by
    rw [← String.toList_inj]
    simp [Condition.written, slotText, probe]
  rwa [String.ofList_toList, hsource] at hchoice

/-! ### Registering operators -/

namespace Operators

lemma lookup_cons (k : String) (o : Operator) (ops : Operators) (x : String) :
    List.lookup x ((k, o) :: ops) = if x = k then some o else List.lookup x ops := by
  by_cases hx : x = k
  · rw [hx, List.lookup_cons_self, if_pos rfl]
  · rw [List.lookup_cons, beq_false_of_ne hx, if_neg hx]

/-- One operator is put in, and the others stay. -/
lemma lookup_insert (name : String) (op : Operator) (ops : Operators) (x : String) :
    List.lookup x (insert name op ops) = if x = name then some op else List.lookup x ops := by
  induction ops with
  | nil => rw [insert, lookup_cons]
  | cons d ops ih =>
    obtain ⟨k, o⟩ := d
    rw [insert]
    split
    · rename_i hk
      obtain rfl : k = name := by simpa using hk
      rw [lookup_cons, lookup_cons]
      split <;> rfl
    · rename_i hk
      have hk : k ≠ name := by simpa using hk
      rw [lookup_cons, ih, lookup_cons]
      by_cases hx : x = k
      · rw [if_pos hx, if_pos hx, if_neg (hx ▸ hk)]
      · rw [if_neg hx, if_neg hx]

lemma find?_of_lookup {ops : Operators} {name : String} {op : Operator}
    (h : List.lookup name ops = some op) : ops.find? name = some op := by
  rw [find?, h]

end Operators

namespace Engine

variable {σ : Type} {e f g : Engine σ}

/-- Operators put under their names in turn, up to the first name that none can have. -/
def registerAll (e : Engine σ) : List (String × Operator) → Except Failure (Engine σ)
  | [] => .ok e
  | (name, op) :: rest =>
    match e.register name op with
    | .ok f => f.registerAll rest
    | .error x => .error x

/-- An operator can be registered under the names that have no fault, and is put in under them. -/
lemma register_eq_ok {name : String} {op : Operator} : e.register name op = .ok f ↔
    Operators.nameFault? name = none ∧
      f = { e with operators := Operators.insert name op e.operators } := by
  unfold register Operators.register
  rcases Operators.nameFault? name with _ | m
  · constructor
    · rintro ⟨⟩
      exact ⟨rfl, rfl⟩
    · rintro ⟨-, rfl⟩
      rfl
  · constructor
    · rintro ⟨⟩
    · rintro ⟨⟨⟩, -⟩

/-- Registering operators under other names leaves an operator where it is. -/
lemma lookup_registerAll {name : String} {later : List (String × Operator)}
    (h : f.registerAll later = .ok g) (hothers : ∀ d ∈ later, d.1 ≠ name) :
    List.lookup name g.operators = List.lookup name f.operators := by
  induction later generalizing f with
  | nil =>
    cases h
    rfl
  | cons d later ih =>
    obtain ⟨k, o⟩ := d
    obtain ⟨hk, hothers⟩ := List.forall_mem_cons.mp hothers
    rcases hr : f.register k o with x | f'
    · simp [registerAll, hr] at h
    · obtain ⟨-, rfl⟩ := register_eq_ok.mp hr
      rw [ih (by simpa [registerAll, hr] using h) hothers, Operators.lookup_insert,
        if_neg (Ne.symm hk)]

end Engine

/-! ### Loading plugins -/

namespace Plugin

variable {σ : Type}

/-- Why an object is refused before anything is done with it. -/
def Member.fault? : Member σ → Option PluginFault
  | .plugin p => p.fault?
  | a => some (.notAPlugin a.kind)

/-- What the plugin does when it is loaded. -/
def hook (p : Plugin σ) : StateM σ (Except Failure Unit) :=
  match p.onLoad with
  | some (.run act) => act
  | _ => pure (.ok ())

/-- The operators are others, overridden by the plugin's. -/
def Overrides (p : Plugin σ) (before after : Operators) : Prop :=
  ∀ name, List.lookup name after =
    ((p.operators.reverse.lookup name).map (·.operator)).or (List.lookup name before)

lemma overrides_extend (p : Plugin σ) (ops : Operators) : p.Overrides ops (p.extend ops) := by
  intro name
  unfold extend
  induction p.operators using List.reverseRecOn with
  | nil => rfl
  | append_singleton declared d ih =>
    rw [List.foldl_append, List.reverse_append]
    change List.lookup name (Operators.insert d.1 d.2.operator _) =
      ((List.lookup name (d :: declared.reverse)).map _).or _
    rw [Operators.lookup_insert, ih, List.lookup_cons]
    by_cases hd : name = d.1
    · simp [hd]
    · simp [hd, beq_false_of_ne hd]

/-- A plugin that is not refused declares operators under names that can be registered. -/
lemma nameFault?_of_fault? {p : Plugin σ} (h : p.fault? = none) :
    ∀ d ∈ p.operators, Operators.nameFault? d.1 = none := by
  intro d hd
  have hoperators : p.operators.findSome? (operatorFault? p.name) = none := by
    unfold fault? at h
    split at h
    · cases h
    · split at h
      · cases h
      · split at h
        · cases h
        · assumption
  have hnone := List.findSome?_eq_none_iff.mp hoperators d hd
  by_contra hname
  rw [operatorFault?, if_pos (Option.isSome_iff_ne_none.mpr hname)] at hnone
  cases hnone

end Plugin

namespace Engine

open Plugin

variable {σ : Type} {e : Engine σ} {p : Plugin σ} {w : σ}

/-- The operators of a plugin could as well be registered one by one. -/
lemma registerAll_extend (h : p.fault? = none) :
    e.registerAll (p.operators.map fun d => (d.1, d.2.operator)) =
      .ok { e with operators := p.extend e.operators } := by
  have hnames := nameFault?_of_fault? h
  unfold extend
  generalize p.operators = declared at hnames ⊢
  induction declared generalizing e with
  | nil => rfl
  | cons d declared ih =>
    obtain ⟨hd, hnames⟩ := List.forall_mem_cons.mp hnames
    have hregister : e.register d.1 d.2.operator =
        .ok { e with operators := Operators.insert d.1 d.2.operator e.operators } :=
      register_eq_ok.mpr ⟨hd, rfl⟩
    rw [List.map_cons, registerAll]
    simp only [hregister]
    exact ih hnames

/-- What is refused changes nothing. -/
lemma load_of_fault {a : Member σ} {x : PluginFault} (h : a.fault? = some x) :
    e.load a w = ((e, .error x.failure), w) := by
  cases a with
  | plugin p =>
    have hp : p.fault? = some x := h
    unfold load loadPlugin
    simp only [hp]
    rfl
  | _ =>
    cases h
    rfl

/-- What is not refused is a plugin, and what its hook does decides whether it counts as loaded. -/
lemma load_of_valid (h : p.fault? = none) : e.load (.plugin p) w = match p.hook w with
    | (.ok (), w') =>
      (({ e with operators := p.extend e.operators, plugins := e.plugins ++ [p] }, .ok ()), w')
    | (.error x, w') => (({ e with operators := p.extend e.operators }, .error x), w') := by
  unfold load loadPlugin Plugin.hook
  simp only [h]
  rcases p.onLoad with _ | act | _
  · rfl
  · change (act >>= _) w = _
    rw [StateM.bind_apply]
    dsimp only
    rcases act w with ⟨_ | _, w'⟩ <;> rfl
  · rfl

/-- Loading the object either loads it whole or leaves operators and plugins as they are. -/
def LoadsWhole (e : Engine σ) (a : Member σ) (w : σ) : Prop :=
  match (e.load a w).1 with
  | (f, .ok ()) => ∃ p, a = .plugin p ∧ p.Overrides e.operators f.operators ∧
      f.plugins = e.plugins ++ [p]
  | (f, .error _) => f.operators = e.operators ∧ f.plugins = e.plugins

/-- **Loading plugins**: an object that is loaded is a plugin, whose operators override those before
and which is added to the plugins. Where loading fails, the plugins are as before. So are the
operators, and the world, where the object is refused; but where the plugin's own hook fails, which
runs after the registration, its operators stay. -/
theorem load_settled (e : Engine σ) (a : Member σ) (w : σ) : ∃ f r w', e.load a w = ((f, r), w') ∧
    f = { e with operators := f.operators, plugins := f.plugins } ∧
    match r with
    | .ok () => ∃ p, a = .plugin p ∧ p.fault? = none ∧ p.hook w = (.ok (), w') ∧
        p.Overrides e.operators f.operators ∧ f.plugins = e.plugins ++ [p]
    | .error x => f.plugins = e.plugins ∧
        ((∃ fault, a.fault? = some fault ∧ x = fault.failure ∧
          f.operators = e.operators ∧ w' = w) ∨
        ∃ p, a = .plugin p ∧ p.fault? = none ∧ p.hook w = (.error x, w') ∧
          p.Overrides e.operators f.operators) := by
  rcases hfault : a.fault? with _ | fault
  · obtain ⟨p, rfl⟩ : ∃ p, a = .plugin p := by
      cases a with
      | plugin p => exact ⟨p, rfl⟩
      | _ => cases hfault
    have hp : p.fault? = none := hfault
    have hload := load_of_valid (e := e) (w := w) hp
    have hoverrides := p.overrides_extend e.operators
    rcases hhook : p.hook w with ⟨x | ⟨⟩, w'⟩
    · rw [hhook] at hload
      exact ⟨_, _, w', hload, rfl, rfl, .inr ⟨p, rfl, hp, hhook, hoverrides⟩⟩
    · rw [hhook] at hload
      exact ⟨_, _, w', hload, rfl, p, rfl, hp, hhook, hoverrides, rfl⟩
  · exact ⟨e, _, w, load_of_fault hfault, rfl, rfl, .inl ⟨fault, rfl, rfl, rfl, rfl⟩⟩

/-- A plugin whose hook fails leaves its operator behind. -/
theorem not_loadsWhole_of_hook : ¬ LoadsWhole (⟨{}, none, none, none, [], []⟩ : Engine Unit)
    (.plugin {
      name := "p"
      version := "1"
      operators := [("yes", ⟨{ name := "yes", handler := fun _ _ => .ok (.bool true) }, true⟩)]
      onLoad := some (.run (pure (.error (.foreign "RuntimeError" "hook failed")))) }) () := by
  rintro ⟨hoperators, -⟩
  cases hoperators

end Engine

/-! ### Reading a probe -/

/-- The probe for the name is read without a fault, as a choice by the comparison by this name. -/
def Probes (name : String) : Prop :=
  (parse (probe name)).success = true ∧ (parse (probe name)).document.unplaced.children =
    [.conditional (.compare "x" name .none .empty) [.text "a" .empty] [.text "b" .empty] .empty]

/-- Places aside, the trees are a single node. -/
lemma Node.eq_singleton_of_unplacedAll {ns : List Node} {m : Node}
    (h : Node.unplacedAll ns = [m]) : ∃ n, ns = [n] ∧ n.unplaced = m := by
  rcases ns with _ | ⟨n, ns⟩
  · cases h
  · rw [Node.unplacedAll] at h
    obtain ⟨hn, hns⟩ := List.cons.inj h
    cases ns with
    | nil => exact ⟨n, rfl, hn⟩
    | cons => cases hns

lemma Node.eq_text_of_unplacedAll {ns : List Node} {content : String}
    (h : Node.unplacedAll ns = [.text content .empty]) : ∃ span, ns = [.text content span] := by
  obtain ⟨n, rfl, hn⟩ := Node.eq_singleton_of_unplacedAll h
  cases n <;> rw [Node.unplaced] at hn <;> cases hn
  exact ⟨_, rfl⟩

lemma Condition.eq_compare_of_unplaced {c : Condition} {name op : String} {arg : Argument}
    (h : c.unplaced = .compare name op arg .empty) : ∃ span, c = .compare name op arg span := by
  cases c <;> rw [Condition.unplaced] at h <;> cases h
  exact ⟨_, rfl⟩

/-- A choice by a comparison, with its places. -/
lemma ParsesTo.exists_choice {source name op : String} {arg : Argument}
    (h : ParsesTo source [.conditional (.compare name op arg .empty) [.text "a" .empty]
      [.text "b" .empty] .empty]) : ∃ s s₁ s₂ s₃, (parse source).document.children =
        [.conditional (.compare name op arg s) [.text "a" s₁] [.text "b" s₂] s₃] := by
  obtain ⟨n, hchildren, hn⟩ := Node.eq_singleton_of_unplacedAll h.2
  cases n with
  | conditional c t f span =>
    rw [Node.unplaced] at hn
    obtain ⟨hc, ht, hf, -⟩ := Node.conditional.inj hn
    obtain ⟨s, rfl⟩ := Condition.eq_compare_of_unplaced hc
    obtain ⟨s₁, rfl⟩ := Node.eq_text_of_unplacedAll ht
    obtain ⟨s₂, rfl⟩ := Node.eq_text_of_unplacedAll hf
    exact ⟨s, s₁, s₂, span, hchildren⟩
  | _ =>
    rw [Node.unplaced] at hn
    cases hn

/-- What a probe is read as, with its places. -/
lemma Probes.children {name : String} (h : Probes name) : ∃ s s₁ s₂ s₃,
    (parse (probe name)).document.children =
      [.conditional (.compare "x" name .none s) [.text "a" s₁] [.text "b" s₂] s₃] :=
  ParsesTo.exists_choice h

/-- Exactly the names that operators can be used by are read so. -/
lemma probes_iff {name : String} : Probes name ↔ Operators.IsUsable name := by
  constructor
  · intro h
    obtain ⟨s, s₁, s₂, s₃, hchildren⟩ := h.children
    have hwalk : .conditional (.compare "x" name .none s) [.text "a" s₁] [.text "b" s₂] s₃ ∈
        Node.walk (parse (probe name)).document.children := by
      rw [hchildren, Node.walk_cons]
      exact List.mem_cons_self
    obtain ⟨_, _, _, -, -, hworded, hbody, -⟩ := Template.isBody_parse (probe name)
    have hcondition := (hbody.proper hworded _ hwalk).2
    exact (hcondition _ (Condition.mem_subterms_self _)).1
  · exact parsesTo_probe

/-! ### Evaluating a probe -/

namespace Evaluation

variable {σ : Type} {e : Setup σ} {s t : State σ}

/-- An operator that is found is applied to the value of its variable, and to nothing else. -/
lemma comparison_on {name operator : String} {op : Operator} {arg : Argument} {v r : Value}
    (hop : e.operators.find? operator = some op)
    (hv : Variable.lookup name s.bindings = .ok (some v)) (hr : op.handler v arg.value = .ok r) :
    (comparison e name operator arg).on s = (.ok r.truthy, s) := by
  unfold comparison
  simp only [hop]
  rw [Eval.on_bind, Eval.on_lookup, hv]
  dsimp only
  rw [applyOperator_on, hr]
  rfl

/-- A document without context paths and parts is entered without a trace. -/
lemma entered_of_plain {ns : List Node} (hpaths : Node.contextPaths ns = [])
    (hparts : Node.parts ns = []) : e.entered ns s = s := by
  rw [Setup.entered, Setup.lookedUp, unbound, hpaths, hparts]
  rfl

lemma reduceAll_text (follow : Node → Eval σ (List Node)) (content : String) (span : Span) :
    (reduceAll e follow [.text content span]).on s = (.ok [.text content span], s) := by
  rw [reduceAll, reduceAll, reduce.eq_def]
  rfl

/-- A conditional alone comes down to the branch that its condition selects. -/
lemma reduceAll_conditional {follow : Node → Eval σ (List Node)} {c : Condition} {v : Bool}
    {yes no ms : List Node} {span : Span} {u : State σ} (hc : (holds e c).on s = (.ok v, t))
    (hbranch : (reduceAll e follow (if v then yes else no)).on t = (.ok ms, u)) :
    (reduceAll e follow [.conditional c yes no span]).on s = (.ok ms, u) := by
  have hreduce : (reduce e follow (.conditional c yes no span)).on s = (.ok ms, u) := by
    rw [reduce.eq_def]
    refine Eval.on_bind_ok.mpr ⟨v, t, hc, ?_⟩
    cases v <;> exact hbranch
  rw [reduceAll, reduceAll]
  refine Eval.on_bind_ok.mpr ⟨ms, u, hreduce, ?_⟩
  change (Except.ok (ms ++ []), u) = _
  rw [List.append_nil]

section

variable {d : Document} {c : Condition} {yes no : String} {s₁ s₂ s₃ : Span} {b : Bindings} {w : σ}
  (hd : d.children = [.conditional c [.text yes s₁] [.text no s₂] s₃]) (hpaths : c.paths = [])

include hd hpaths

/-- A choice between two texts that asks for no context path is entered without a trace. -/
lemma entered_choice : e.entered d.children s = s := by
  refine entered_of_plain ?_ ?_
  · rw [List.eq_nil_iff_forall_not_mem]
    intro p hp
    obtain ⟨n, hn, hp⟩ := Node.mem_contextPaths.mp hp
    rw [hd] at hn
    simp only [Node.walk_cons, Node.walk_nil, Node.children, List.append_nil, List.cons_append,
      List.nil_append, List.mem_cons, List.not_mem_nil, or_false] at hn
    rcases hn with rfl | rfl | rfl
    · change p ∈ c.paths at hp
      rw [hpaths] at hp
      cases hp
    · cases hp
    · cases hp
  · rw [hd]
    simp [Node.parts, Node.walk_cons, Node.children, Node.partsFrom]

/-- A choice between two texts comes down to the one that its condition selects. -/
lemma evaluate_choice {v : Bool} (hc : (holds e c).on ⟨b, [], [], w⟩ = (.ok v, ⟨b, [], [], w⟩))
    (origin : Option String) : evaluate e origin d b w =
      (.ok ⟨{ d with children := [if v then .text yes s₁ else .text no s₂] }, b, [], []⟩, w) := by
  have hin : (evaluateIn e origin d).on ⟨b, [], [], w⟩ =
      (.ok { d with children := [if v then .text yes s₁ else .text no s₂] },
        ⟨b, [], [], w⟩) := by
    refine Eval.on_bind_ok.mpr ⟨(), ⟨b, [], [], w⟩, ?_, Eval.on_bind_ok.mpr ⟨_, _, ?_, rfl⟩⟩
    · rw [enter_on, entered_choice hd hpaths]
    · rw [hd]
      refine reduceAll_conditional hc ?_
      cases v <;> exact reduceAll_text _ _ _
  rw [evaluate_eq, hin]

end

/-- The evaluation of a choice between two texts by a comparison comes to no other condition. -/
lemma visits_choice_iff {ns : List Node} {name operator yes no : String} {arg : Argument}
    {span s₁ s₂ s₃ : Span} {b : Bindings} {w : σ} {origin : Option String}
    (hns : ns = [.conditional (.compare name operator arg span) [.text yes s₁] [.text no s₂] s₃])
    {c : Condition} : e.Visits origin ns b w (.condition c, s) ↔
      c = .compare name operator arg span ∧ s = ⟨b, [], [], w⟩ := by
  have hstart := e.visits_start origin ns b w
  have hentered : e.entered ns ⟨b, [], [], w⟩ = ⟨b, [], [], w⟩ :=
    entered_choice (d := ⟨ns, .empty⟩) hns rfl
  rw [hentered] at hstart
  constructor
  · rintro ⟨t, ht, hx⟩
    rw [enter_on, hentered] at ht
    obtain rfl := (Prod.mk.inj ht).2
    generalize depthBound e ns = depth at hx
    -- the choice, its condition, and texts behind them
    have key {x : Point σ} (hx : Relation.ReflTransGen (Leads e)
        (.trees depth ⟨origin, [], []⟩ ns, ⟨b, [], [], w⟩) x) :
        x = (.trees depth ⟨origin, [], []⟩ ns, ⟨b, [], [], w⟩) ∨
        x = (.condition (.compare name operator arg span), ⟨b, [], [], w⟩) ∨
        ∃ depth stack ms t, x = (.trees depth stack ms, t) ∧
          ∀ m ∈ ms, ∃ content span, m = .text content span := by
      subst hns
      induction hx with
      | refl => exact .inl rfl
      | tail _ hleads ih =>
        rcases ih with rfl | rfl | ⟨depth, stack, ms, t, rfl, hms⟩
        · cases hleads with
          | condition => exact .inr (.inl rfl)
          | branch =>
            refine .inr (.inr ⟨_, _, _, _, rfl, ?_⟩)
            split <;> simp
          | document hopen =>
            obtain ⟨_, _, hrefers, -⟩ := hopen
            cases hrefers
          | behind => exact .inr (.inr ⟨_, _, _, _, rfl, by simp⟩)
        · cases hleads
        · refine .inr (.inr ?_)
          rcases ms with _ | ⟨m, ms⟩
          · cases hleads
          · obtain ⟨⟨content, span, rfl⟩, hrest⟩ := List.forall_mem_cons.mp hms
            cases hleads with
            | document hopen =>
              obtain ⟨_, _, hrefers, -⟩ := hopen
              cases hrefers
            | behind => exact ⟨_, _, _, _, rfl, hrest⟩
    rcases key hx with h | h | ⟨_, _, _, _, h, -⟩
    · cases h
    · cases h
      exact ⟨rfl, rfl⟩
    · cases h
  · rintro ⟨rfl, rfl⟩
    subst hns
    exact hstart.leads .condition

end Evaluation

namespace Engine

open Evaluation

variable {σ : Type} {e f g : Engine σ}

/-- A choice by a comparison takes the branch that the operator's result selects. -/
lemma evaluate_comparison {source name operator : String} {arg : Argument}
    (h : ParsesTo source [.conditional (.compare name operator arg .empty) [.text "a" .empty]
      [.text "b" .empty] .empty]) {op : Operator} (hop : e.operators.find? operator = some op)
    {b : Bindings} {v r : Value} (hv : Variable.lookup name b = .ok (some v))
    (hr : op.handler v arg.value = .ok r) (w : σ) : ∃ span d, e.evaluate source b w =
      (.ok ⟨⟨[.text (if r.truthy then "a" else "b") span], d⟩, b, [], []⟩, w) := by
  obtain ⟨s, s₁, s₂, s₃, hchildren⟩ := h.exists_choice
  have hcondition : (holds e.setup (.compare name operator arg s)).on ⟨b, [], [], w⟩ =
      (.ok r.truthy, ⟨b, [], [], w⟩) := by
    rw [holds]
    exact comparison_on hop hv hr
  refine ⟨if r.truthy then s₁ else s₂, (parse source).document.span, ?_⟩
  unfold evaluate
  rw [if_pos h.1, evaluate_choice hchildren rfl hcondition]
  split <;> rfl

/-- **Registered operators**: of the names that operators can be registered under, those that are
usable are the names whose probe is read as the comparison by them. Under such a name, whatever was
registered before and is registered later under other names, the evaluation of the probe with `x`
bound comes to this one condition; it applies the operator to the value of `x`, and takes the branch
that the result selects. -/
theorem probes_iff_isUsable {name : String} {op : Operator} {later : List (String × Operator)}
    (hregister : e.register name op = .ok f) (hlater : f.registerAll later = .ok g)
    (hothers : ∀ d ∈ later, d.1 ≠ name) :
    (Probes name ↔ Operators.IsUsable name) ∧ (Operators.IsUsable name →
      ∀ b v (w : σ), b.find? "x" = some v →
        (∃ span, ∀ c s, g.setup.Visits none (parse (probe name)).document.children b w
          (.condition c, s) ↔ c = .compare "x" name .none span ∧ s = ⟨b, [], [], w⟩) ∧
        ∀ r, op.handler v .null = .ok r → ∃ span d, g.evaluate (probe name) b w =
          (.ok ⟨⟨[.text (if r.truthy then "a" else "b") span], d⟩, b, [], []⟩, w)) := by
  obtain ⟨-, rfl⟩ := register_eq_ok.mp hregister
  have hop : g.operators.find? name = some op := by
    refine Operators.find?_of_lookup ?_
    rw [lookup_registerAll hlater hothers, Operators.lookup_insert, if_pos rfl]
  refine ⟨probes_iff, fun hname b v w hv => ?_⟩
  have hprobes := probes_iff.mpr hname
  obtain ⟨s, s₁, s₂, s₃, hchildren⟩ := hprobes.children
  refine ⟨⟨s, fun c t => visits_choice_iff hchildren⟩, fun r hr => ?_⟩
  have hcondition : (holds g.setup (.compare "x" name .none s)).on ⟨b, [], [], w⟩ =
      (.ok r.truthy, ⟨b, [], [], w⟩) := by
    rw [holds]
    exact comparison_on hop (by rw [Variable.lookup, hv]) hr
  refine ⟨if r.truthy then s₁ else s₂, (parse (probe name)).document.span, ?_⟩
  unfold evaluate
  rw [if_pos hprobes.1, evaluate_choice hchildren rfl hcondition]
  split <;> rfl

end Engine

namespace Examples

open Engine

/-- Whether an integer is even. -/
def even : Operator where
  name := "even"
  handler
    | .int n, _ => .ok (.bool (n % 2 == 0))
    | _, _ => .ok (.bool false)

/-- Operators for even and for odd numbers are registered, and the first is used. -/
theorem probes_iff_isUsable_even : ∃ e f g : Engine Unit,
    e.register "even" even = .ok f ∧ f.registerAll [("odd", even)] = .ok g ∧ Probes "even" ∧
      ∃ span d, g.evaluate (probe "even") [("x", .int 2)] () =
        (.ok ⟨⟨[.text "a" span], d⟩, [("x", .int 2)], [], []⟩, ()) := by
  let e : Engine Unit := ⟨{}, none, none, none, [], []⟩
  have hname : Operators.IsUsable "even" :=
    ⟨⟨'e', "ven".toList, rfl, rfl, List.all_eq_true.mp rfl⟩, by decide +kernel, by decide⟩
  have hregister : e.register "even" even = .ok { e with operators := [("even", even)] } := rfl
  have hlater : ({ e with operators := [("even", even)] } : Engine Unit).registerAll
      [("odd", even)] = .ok { e with operators := [("even", even), ("odd", even)] } := rfl
  obtain ⟨hprobes, huse⟩ := probes_iff_isUsable hregister hlater (by decide)
  exact ⟨e, _, _, hregister, hlater, hprobes.mpr hname,
    (huse hname [("x", .int 2)] (.int 2) () rfl).2 (.bool true) rfl⟩

end Examples

/-- A name with a capital letter can be registered all the same. -/
example : Operators.nameFault? "Even" = none ∧ ¬ Probes "Even" :=
  ⟨by decide, fun h => absurd (probes_iff.mp h).lower (by decide +kernel)⟩

end Stencil
