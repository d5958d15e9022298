import Mathlib.Data.Prod.Lex
import Stencil.Proofs.Evaluation.Coupling

/-!
Why evaluations fail.

A point of an evaluation is stuck if it fails by itself, for a cause that can be read off the point
(`Stuck`). Whatever else fails does so because something fails that it leads to. Points cannot lead
on for ever (`wellFounded_leads`), so an evaluation fails exactly if it comes to a point that is
stuck, and with the failure of that point (`evaluate_error_iff`).
-/

namespace Stencil

/-- The operator that a condition applies, apart from its operands. -/
def Condition.operator? : Condition → Option String
  | compare _ op _ _ => some op
  | _ => none

namespace Evaluation

variable {σ : Type} {e : Setup σ} {N : Node → Prop} {names : List String} {x y : Point σ}
  {s t : State σ} {depth : Nat} {stack : Stack} {n : Node} {ns : List Node} {path : String}
  {f : Failure}

/-! ### Causes -/

/-- Why a point fails by itself. -/
inductive Cause where
  | overlongIndex (name : String)
  | unknownVariable (name : String)
  | unknownOperator (name : String)
  /-- The handler of the operator fails. -/
  | operator (name : String)
  | noJudge
  /-- The judge has no answer to the question. -/
  | judge (question : String)
  | context (path : String) (r : Context.Result)
  | noLoader (path : String)
  /-- The document behind the path is not put in place. -/
  | document (path : String)
  | circularInclude (name : String)
  | partNotFound (name : String)

/-- The point fails by itself, for the cause and with the failure. -/
inductive Stuck (e : Setup σ) : Point σ → Cause → Failure → Prop where
  | overlongIndex {c : Condition} {name : String} {fault : ValueFault} {s : State σ}
    (hname : c.name? = some name)
    (hop : ∀ op, c.operator? = some op → (e.operators.find? op).isSome = true)
    (hlookup : Variable.lookup name s.bindings = .error fault) :
    Stuck e (.condition c, s) (.overlongIndex name) (.value fault)
  | unknownVariable {c : Condition} {name : String} {s : State σ} (hstrict : e.strict = true)
    (hname : c.name? = some name)
    (hop : ∀ op, c.operator? = some op → (e.operators.find? op).isSome = true ∧ op ≠ "exists")
    (hlookup : Variable.lookup name s.bindings = .ok none) :
    Stuck e (.condition c, s) (.unknownVariable name)
      (.error (.evaluation (.unknownVariable name (publicNames s.bindings))))
  | unknownOperator {name op : String} {arg : Argument} {span : Span} {s : State σ}
    (hstrict : e.strict = true) (hop : e.operators.find? op = none) :
    Stuck e (.condition (.compare name op arg span), s) (.unknownOperator op)
      (.error (.evaluation (.unknownOperator op)))
  | operator {name op : String} {arg : Argument} {span : Span} {s : State σ} {o : Operator}
    {v : Option Value} {fault : Failure} (hop : e.operators.find? op = some o)
    (hlookup : Variable.lookup name s.bindings = .ok v)
    (habsent : v = none → op ≠ "exists" ∧ e.strict = false)
    (hfault : o.handler (v.getD .null) arg.value = .error fault) :
    Stuck e (.condition (.compare name op arg span), s) (.operator op) (operatorFailure op fault)
  | noJudge {name question : String} {span : Span} {s : State σ} {v : Value}
    (hlookup : Variable.lookup name s.bindings = .ok (some v)) (hjudge : e.judge = none) :
    Stuck e (.condition (.judge name question span), s) .noJudge
      (.error (.judge .unconfigured (some question)))
  | judge {name question : String} {span : Span} {s : State σ} {v : Value} {judge : Judge σ}
    {fault : Failure} (hlookup : Variable.lookup name s.bindings = .ok (some v))
    (hjudge : e.judge = some judge)
    (hfault : outcome e.timeout question (judge.ask v question s.world).1 = .error fault) :
    Stuck e (.condition (.judge name question span), s) (.judge question) fault
  | present {path : String} {span : Span} {s : State σ} {r : Context.Result}
    (hbound : Context.bound? s.bindings path = some r) (hfail : r.success = false)
    (hfound : (r.failure == some .notFound) = false) :
    Stuck e (.condition (.present path span), s) (.context path r) (.error (contextError r))
  | context {depth : Nat} {stack : Stack} {path : String} {span : Span} {ns : List Node}
    {s : State σ} {r : Context.Result} (hstrict : e.strict = true)
    (hbound : Context.bound? s.bindings path = some r) (hfail : r.success = false) :
    Stuck e (.trees depth stack (.context path span :: ns), s) (.context path r)
      (.error (contextError r))
  | noLoader {depth : Nat} {stack : Stack} {path : String} {span : Span} {ns : List Node}
    {s : State σ} (hstrict : e.strict = true) (hloader : e.loader = none) :
    Stuck e (.trees (depth + 1) stack (.imported path span :: ns), s) (.noLoader path)
      (.error (.evaluation (.noImportLoader path)))
  | document {depth : Nat} {stack : Stack} {n : Node} {ns : List Node} {path : String}
    {s : State σ} {loader : ImportLoader} {fault : Failure} (hrefers : RefersTo s n path)
    (hloader : e.loader = some loader)
    (hfault : (openDocument e loader stack path).on s = (.error fault, s)) :
    Stuck e (.trees (depth + 1) stack (n :: ns), s) (.document path) fault
  | circularInclude {depth : Nat} {stack : Stack} {path : String} {span : Span} {ns : List Node}
    {s : State σ} {children : List Node} (hpart : s.parts.lookup path = some children)
    (hheld : path ∈ stack.parts) :
    Stuck e (.trees (depth + 1) stack (.included path span :: ns), s) (.circularInclude path)
      (.error (.evaluation (.circularInclude (stack.parts.reverse ++ [path]))))
  | partNotFound {depth : Nat} {stack : Stack} {path : String} {span : Span} {ns : List Node}
    {s : State σ} (hstrict : e.strict = true) (hpart : s.parts.lookup path = none)
    (hfile : ((path.toList.contains '/' || Text.endsWith templateExtension path) &&
      e.loader.isSome) = false) :
    Stuck e (.trees (depth + 1) stack (.included path span :: ns), s) (.partNotFound path)
      (.error (.evaluation (.partNotFound path)))

/-- What there is to do at the point fails. -/
def Fails (e : Setup σ) : Point σ → Failure → Prop
  | (.condition c, s), f => ((holds e c).on s).1 = .error f
  | (.all cs, s), f => ((allHold e cs).on s).1 = .error f
  | (.any cs, s), f => ((anyHolds e cs).on s).1 = .error f
  | (.trees depth stack ns, s), f =>
    ((reduceAll e (follow e depth stack) ns).on s).1 = .error f

/-! ### Steps -/

/-- A node that is replaced by a document is reduced to what that comes down to. -/
lemma reduce_on_of_refersTo (h : RefersTo s n path) (hloader : e.loader.isSome = true) :
    (reduce e (follow e (depth + 1) stack) n).on s =
      (importDocument e (follow e depth) stack n path).on s := by
  cases h with
  | imported path span =>
    rw [reduce.eq_def]
    rfl
  | included path span hpart hfile =>
    rw [reduce.eq_def]
    dsimp only
    rw [follow, includePart, Eval.on_get_bind, hpart]
    dsimp only
    rw [hfile, hloader]
    rfl

lemma importDocument_of_loader {loader : ImportLoader} (h : e.loader = some loader)
    (descend : Stack → Node → Eval σ (List Node)) : importDocument e descend stack n path =
      openDocument e loader stack path >>= fun d => enter e d.2 >>= fun _ =>
        reduceAll e (descend { stack with documents := d.1 :: stack.documents }) d.2 := by
  unfold importDocument
  rw [h]

/-- Trees fail if the first one does, or those behind it do. -/
lemma fails_trees_cons : Fails e (.trees depth stack (n :: ns), s) f ↔
    ((reduce e (follow e depth stack) n).on s).1 = .error f ∨
      ∃ ms t, (reduce e (follow e depth stack) n).on s = (.ok ms, t) ∧
        Fails e (.trees depth stack ns, t) f := by
  have append (ms ks : List Node) (s : State σ) :
      ((pure (ms ++ ks) : Eval σ (List Node)).on s).1 ≠ .error f := nofun
  change ((reduceAll e (follow e depth stack) (n :: ns)).on s).1 = .error f ↔ _
  simp only [reduceAll, Eval.on_bind_error, append, and_false, exists_false, or_false, Fails]

/-- What fails at a point makes what leads to it fail. -/
lemma Fails.of_leads (h : Leads e x y) (hf : Fails e y f) : Fails e x f := by
  cases h with
  | not =>
    change ((holds e (.not _ _)).on _).1 = _
    rw [holds, Eval.on_bind_error]
    exact .inl hf
  | and =>
    change ((holds e (.and _ _)).on _).1 = _
    rw [holds]
    exact hf
  | or =>
    change ((holds e (.or _ _)).on _).1 = _
    rw [holds]
    exact hf
  | allFirst =>
    change ((allHold e _).on _).1 = _
    rw [allHold, Eval.on_bind_error]
    exact .inl hf
  | allRest h =>
    change ((allHold e _).on _).1 = _
    rw [allHold, Eval.on_bind_error]
    exact .inr ⟨true, _, h, hf⟩
  | anyFirst =>
    change ((anyHolds e _).on _).1 = _
    rw [anyHolds, Eval.on_bind_error]
    exact .inl hf
  | anyRest h =>
    change ((anyHolds e _).on _).1 = _
    rw [anyHolds, Eval.on_bind_error]
    exact .inr ⟨false, _, h, hf⟩
  | condition =>
    refine fails_trees_cons.mpr (.inl ?_)
    rw [reduce, Eval.on_bind_error]
    exact .inl hf
  | @branch _ _ _ _ _ _ _ _ t v h =>
    refine fails_trees_cons.mpr (.inl ?_)
    rw [reduce, Eval.on_bind_error]
    refine .inr ⟨v, t, h, ?_⟩
    cases v <;> exact hf
  | part =>
    refine fails_trees_cons.mpr (.inl ?_)
    rw [reduce, Eval.on_bind_error]
    exact .inl hf
  | included hpart hnew =>
    refine fails_trees_cons.mpr (.inl ?_)
    rw [reduce, follow, includePart, Eval.on_get_bind, hpart]
    dsimp only
    rw [if_neg (by simpa using hnew)]
    exact hf
  | document hopen henter =>
    obtain ⟨path, loader, hrefers, hloader, hopen⟩ := hopen
    refine fails_trees_cons.mpr (.inl ?_)
    rw [reduce_on_of_refersTo hrefers (by rw [hloader]; rfl), importDocument_of_loader hloader,
      Eval.on_bind_error]
    refine .inr ⟨_, _, hopen, ?_⟩
    rw [Eval.on_bind_error]
    exact .inr ⟨(), _, henter, hf⟩
  | behind h => exact fails_trees_cons.mpr (.inr ⟨_, _, h, hf⟩)

/-- A point that is stuck fails. -/
lemma fails_of_stuck {cause : Cause} (h : Stuck e x cause f) : Fails e x f := by
  cases h with
  | @overlongIndex c name fault s hname hop hlookup =>
    have hfault {g : Option Value → Eval σ Bool} :
        (Eval.on (lookup name >>= g) s).1 = .error (.value fault) :=
      Eval.on_lookup_bind_error.mpr (.inl ⟨fault, hlookup, rfl⟩)
    change ((holds e c).on s).1 = _
    cases c with
    | ref _ span | judge _ question span =>
      obtain rfl := Option.some.inj hname
      rw [holds]
      exact hfault
    | compare _ op arg span =>
      obtain rfl := Option.some.inj hname
      obtain ⟨o, ho⟩ := Option.isSome_iff_exists.mp (hop op rfl)
      rw [holds, comparison, ho]
      exact hfault
    | _ => cases hname
  | @unknownVariable c name s hstrict hname hop hlookup =>
    have hfault : ((unknownVariable e name).on s).1 =
        .error (.error (.evaluation (.unknownVariable name (publicNames s.bindings)))) := by
      rw [unknownVariable_on, hstrict]
      rfl
    change ((holds e c).on s).1 = _
    cases c with
    | ref _ span | judge _ question span =>
      obtain rfl := Option.some.inj hname
      rw [holds]
      exact Eval.on_lookup_bind_error.mpr (.inr ⟨none, hlookup, hfault⟩)
    | compare _ op arg span =>
      obtain rfl := Option.some.inj hname
      obtain ⟨hknown, hne⟩ := hop op rfl
      obtain ⟨o, ho⟩ := Option.isSome_iff_exists.mp hknown
      rw [holds, comparison, ho]
      refine Eval.on_lookup_bind_error.mpr (.inr ⟨none, hlookup, ?_⟩)
      dsimp only
      rw [if_neg (by simpa using hne), if_pos hstrict]
      exact hfault
    | _ => cases hname
  | @unknownOperator name op arg span s hstrict hop =>
    change ((holds e (.compare name op arg span)).on s).1 = _
    rw [holds, comparison, hop]
    dsimp only
    rw [if_pos hstrict]
    rfl
  | @operator name op arg span s o v fault hop hlookup habsent hfault =>
    have happly : ((applyOperator op o (v.getD .null) arg).on s).1 =
        .error (operatorFailure op fault) := by
      rw [applyOperator_on, hfault]
      rfl
    change ((holds e (.compare name op arg span)).on s).1 = _
    rw [holds, comparison, hop]
    refine Eval.on_lookup_bind_error.mpr (.inr ⟨v, hlookup, ?_⟩)
    cases v with
    | some v => exact happly
    | none =>
      obtain ⟨hne, hlenient⟩ := habsent rfl
      dsimp only
      rw [if_neg (by simpa using hne), hlenient]
      exact happly
  | @noJudge name question span s v hlookup hjudge =>
    change ((holds e (.judge name question span)).on s).1 = _
    rw [holds]
    refine Eval.on_lookup_bind_error.mpr (.inr ⟨some v, hlookup, ?_⟩)
    dsimp only
    rw [askJudge_on_none hjudge]
  | @judge name question span s v judge fault hlookup hjudge hfault =>
    change ((holds e (.judge name question span)).on s).1 = _
    rw [holds]
    refine Eval.on_lookup_bind_error.mpr (.inr ⟨some v, hlookup, ?_⟩)
    dsimp only
    rw [askJudge_on_some hjudge, hfault]
  | @present path span s r hbound hfail hfound =>
    change ((holds e (.present path span)).on s).1 = _
    rw [holds, Eval.on_bind_error]
    refine .inr ⟨r, s, contextResult_of_bound hbound, ?_⟩
    rw [if_neg (by simp [hfail]), if_neg (by simp [hfound])]
    rfl
  | @context depth stack path span ns s r hstrict hbound hfail =>
    refine fails_trees_cons.mpr (.inl ?_)
    rw [reduce, if_pos hstrict, Eval.on_bind_error, requireContext_of_bound hbound, hfail]
    exact .inl rfl
  | @noLoader depth stack path span ns s hstrict hloader =>
    refine fails_trees_cons.mpr (.inl ?_)
    rw [reduce, follow, importDocument, hloader]
    dsimp only
    rw [if_pos hstrict]
    rfl
  | @document depth stack n ns path s loader fault hrefers hloader hfault =>
    refine fails_trees_cons.mpr (.inl ?_)
    rw [reduce_on_of_refersTo hrefers (by rw [hloader]; rfl), importDocument_of_loader hloader,
      Eval.on_bind_error, hfault]
    exact .inl rfl
  | @circularInclude depth stack path span ns s children hpart hheld =>
    refine fails_trees_cons.mpr (.inl ?_)
    rw [reduce, follow, includePart, Eval.on_get_bind, hpart]
    dsimp only
    rw [if_pos (by simpa using hheld)]
    rfl
  | @partNotFound depth stack path span ns s hstrict hpart hfile =>
    refine fails_trees_cons.mpr (.inl ?_)
    rw [reduce, follow, includePart, Eval.on_get_bind, hpart]
    dsimp only
    rw [hfile, if_neg Bool.false_ne_true, if_pos hstrict]
    rfl

/-- The point is stuck, or leads to a point that fails as it does. -/
def Explains (e : Setup σ) (x : Point σ) (f : Failure) : Prop :=
  (∃ cause, Stuck e x cause f) ∨ ∃ y, Leads e x y ∧ Fails e y f

lemma Stuck.explains {cause : Cause} (h : Stuck e x cause f) : Explains e x f := .inl ⟨cause, h⟩

lemma Leads.explains (h : Leads e x y) (hf : Fails e y f) : Explains e x f := .inr ⟨y, h, hf⟩

/-- A name that is not bound makes a condition stuck, if it makes it fail. -/
lemma explains_unknownVariable {c : Condition} {name : String} (hname : c.name? = some name)
    (hop : ∀ op, c.operator? = some op → (e.operators.find? op).isSome = true ∧ op ≠ "exists")
    (hlookup : Variable.lookup name s.bindings = .ok none)
    (h : ((unknownVariable e name).on s).1 = .error f) : Explains e (.condition c, s) f := by
  rw [unknownVariable_on] at h
  split at h
  · rename_i hstrict
    obtain rfl := Except.error.inj h
    exact (Stuck.unknownVariable hstrict hname hop hlookup).explains
  · cases h

lemma explains_compare {name op : String} {arg : Argument} {span : Span}
    (h : ((comparison e name op arg).on s).1 = .error f) :
    Explains e (.condition (.compare name op arg span), s) f := by
  unfold comparison at h
  rcases hop : e.operators.find? op with _ | o <;> rw [hop] at h <;> dsimp only at h
  · split at h
    · rename_i hstrict
      obtain rfl := Except.error.inj h
      exact (Stuck.unknownOperator hstrict hop).explains
    · cases h
  -- the operator is known
  have hknown (op' : String) (h : (Condition.compare name op arg span).operator? = some op') :
      op' = op ∧ (e.operators.find? op').isSome = true := by
    obtain rfl := Option.some.inj h
    exact ⟨rfl, by rw [hop]; rfl⟩
  have happly (v : Option Value) (hv : Variable.lookup name s.bindings = .ok v)
      (habsent : v = none → op ≠ "exists" ∧ e.strict = false)
      (h : ((applyOperator op o (v.getD .null) arg).on s).1 = .error f) :
      Explains e (.condition (.compare name op arg span), s) f := by
    rw [applyOperator_on] at h
    rcases hfault : o.handler (v.getD .null) arg.value with fault | r <;> rw [hfault] at h
    · obtain rfl := Except.error.inj h
      exact (Stuck.operator hop hv habsent hfault).explains
    · cases h
  rcases Eval.on_lookup_bind_error.mp h with ⟨k, hk, rfl⟩ | ⟨v, hv, h⟩
  · exact (Stuck.overlongIndex rfl (fun op' h => (hknown op' h).2) hk).explains
  cases v with
  | some v => exact happly _ hv nofun h
  | none =>
    dsimp only at h
    split at h
    · cases h
    rename_i hexists
    have hexists : op ≠ "exists" := by simpa using hexists
    split at h
    · exact explains_unknownVariable rfl
        (fun op' h => ⟨(hknown op' h).2, (hknown op' h).1 ▸ hexists⟩) hv h
    · rename_i hstrict
      exact happly none hv (fun _ => ⟨hexists, by simpa using hstrict⟩) h

/-- A condition that fails is stuck, or an operand of it fails. -/
lemma explains_condition {c : Condition} (hx : Orderly e N names (.condition c, s))
    (h : Fails e (.condition c, s) f) : Explains e (.condition c, s) f := by
  change ((holds e c).on s).1 = _ at h
  cases c with
  | literal b span =>
    rw [holds] at h
    cases h
  | ref name span =>
    rw [holds] at h
    rcases Eval.on_lookup_bind_error.mp h with ⟨k, hk, rfl⟩ | ⟨v, hv, h⟩
    · exact (Stuck.overlongIndex rfl (by rintro _ ⟨⟩) hk).explains
    · cases v with
      | some v => cases h
      | none => exact explains_unknownVariable rfl (by rintro _ ⟨⟩) hv h
  | not c span =>
    rw [holds, Eval.on_bind_error] at h
    rcases h with h | ⟨b, t, -, h⟩
    · exact Leads.not.explains h
    · cases h
  | and cs span =>
    rw [holds] at h
    exact Leads.and.explains h
  | or cs span =>
    rw [holds] at h
    exact Leads.or.explains h
  | compare name op arg span =>
    rw [holds] at h
    exact explains_compare h
  | judge name question span =>
    rw [holds] at h
    rcases Eval.on_lookup_bind_error.mp h with ⟨k, hk, rfl⟩ | ⟨v, hv, h⟩
    · exact (Stuck.overlongIndex rfl (by rintro _ ⟨⟩) hk).explains
    cases v with
    | none => exact explains_unknownVariable rfl (by rintro _ ⟨⟩) hv h
    | some v =>
      dsimp only at h
      rcases hjudge : e.judge with _ | judge
      · rw [askJudge_on_none hjudge] at h
        obtain rfl := Except.error.inj h
        exact (Stuck.noJudge hv hjudge).explains
      · rw [askJudge_on_some hjudge] at h
        exact (Stuck.judge hv hjudge h).explains
  | present path span =>
    obtain ⟨r, hr⟩ := hx.present
    rw [holds, Eval.on_bind, contextResult_of_bound hr] at h
    dsimp only at h
    split at h
    · cases h
    rename_i hfail
    split at h
    · cases h
    rename_i hfound
    obtain rfl := Except.error.inj h
    exact (Stuck.present hr (by simpa using hfail) (by simpa using hfound)).explains

/-- Conditions that fail together: the first one does, or those behind it do. -/
lemma explains_all {cs : List Condition} (h : Fails e (.all cs, s) f) :
    Explains e (.all cs, s) f := by
  change ((allHold e cs).on s).1 = _ at h
  cases cs with
  | nil =>
    rw [allHold] at h
    cases h
  | cons c cs =>
    rw [allHold, Eval.on_bind_error] at h
    rcases h with h | ⟨v, t, hv, h⟩
    · exact Leads.allFirst.explains h
    · cases v
      · cases h
      · exact (Leads.allRest hv).explains h

lemma explains_any {cs : List Condition} (h : Fails e (.any cs, s) f) :
    Explains e (.any cs, s) f := by
  change ((anyHolds e cs).on s).1 = _ at h
  cases cs with
  | nil =>
    rw [anyHolds] at h
    cases h
  | cons c cs =>
    rw [anyHolds, Eval.on_bind_error] at h
    rcases h with h | ⟨v, t, hv, h⟩
    · exact Leads.anyFirst.explains h
    · cases v
      · exact (Leads.anyRest hv).explains h
      · cases h

/-- A document that is referred to cannot be put in place, or something in it fails. -/
lemma explains_document {loader : ImportLoader} (hrefers : RefersTo s n path)
    (hloader : e.loader = some loader)
    (h : ((importDocument e (follow e depth) stack n path).on s).1 = .error f) :
    Explains e (.trees (depth + 1) stack (n :: ns), s) f := by
  obtain ⟨r, hr, -⟩ := @openDocument_on σ σ e e rfl loader loader stack path fun _ => rfl
  rw [importDocument_of_loader hloader, Eval.on_bind, hr] at h
  rcases r with fault | ⟨key, ms⟩
  · obtain rfl := Except.error.inj h
    exact (Stuck.document hrefers hloader (hr s)).explains
  · dsimp only at h
    rw [Eval.on_bind, enter_on] at h
    exact (Leads.document ⟨path, loader, hrefers, hloader, hr s⟩ (enter_on e ms s)).explains h

/-- A reference that fails is stuck, or something in what it refers to fails. -/
lemma explains_included {span : Span}
    (h : ((follow e (depth + 1) stack (.included path span)).on s).1 = .error f) :
    Explains e (.trees (depth + 1) stack (.included path span :: ns), s) f := by
  rw [follow, includePart, Eval.on_get_bind] at h
  rcases hpart : s.parts.lookup path with _ | children <;> rw [hpart] at h <;> dsimp only at h
  · split at h
    · rename_i hfile
      obtain ⟨hfile, hloader⟩ := Bool.and_eq_true_iff.mp hfile
      obtain ⟨loader, hloader⟩ := Option.isSome_iff_exists.mp hloader
      exact explains_document (.included path span hpart hfile) hloader h
    · rename_i hfile
      split at h
      · rename_i hstrict
        obtain rfl := Except.error.inj h
        exact (Stuck.partNotFound hstrict hpart (by simpa using hfile)).explains
      · cases h
  · split at h
    · rename_i hheld
      obtain rfl := Except.error.inj h
      exact (Stuck.circularInclude hpart (by simpa using hheld)).explains
    · rename_i hheld
      exact (Leads.included hpart (by simpa using hheld)).explains h

lemma explains_trees (hx : Orderly e N names (.trees depth stack ns, s))
    (h : Fails e (.trees depth stack ns, s) f) : Explains e (.trees depth stack ns, s) f := by
  obtain ⟨depth, rfl⟩ := Nat.exists_eq_succ_of_ne_zero hx.depth_ne_zero
  cases ns with
  | nil =>
    change ((reduceAll e _ []).on s).1 = _ at h
    rw [reduceAll] at h
    cases h
  | cons n ns =>
    rcases fails_trees_cons.mp h with h | ⟨ms, t, hn, h⟩
    · rw [reduce.eq_def] at h
      cases n with
      | text content span | slot name hint default span => cases h
      | conditional c yes no span =>
        rcases Eval.on_bind_error.mp h with h | ⟨v, t, hv, h⟩
        · exact Leads.condition.explains h
        · cases v <;> exact (Leads.branch hv).explains h
      | part name cs span =>
        rcases Eval.on_bind_error.mp h with h | ⟨ms, t, -, h⟩
        · exact Leads.part.explains h
        · cases h
      | imported path span =>
        rcases hloader : e.loader with _ | loader
        · dsimp only at h
          rw [follow, importDocument, hloader] at h
          dsimp only at h
          split at h
          · rename_i hstrict
            obtain rfl := Except.error.inj h
            exact (Stuck.noLoader hstrict hloader).explains
          · cases h
        · exact explains_document (.imported path span) hloader h
      | included path span => exact explains_included h
      | context path span =>
        obtain ⟨r, hr⟩ := hx.context
        dsimp only at h
        split at h
        · rename_i hstrict
          rw [Eval.on_bind_error, requireContext_of_bound hr] at h
          rcases h with h | ⟨u, t, -, h⟩
          · dsimp only at h
            split at h
            · cases h
            · rename_i hfail
              obtain rfl := Except.error.inj h
              exact (Stuck.context hstrict hr (by simpa using hfail)).explains
          · cases h
        · cases h
    · exact (Leads.behind hn).explains h

/-- **What a failure comes from**, at once: a point in order that fails is stuck, or it leads to a
point that fails as it does. -/
lemma Fails.explains (hx : Orderly e N names x) (h : Fails e x f) : Explains e x f := by
  obtain ⟨work, s⟩ := x
  cases work with
  | condition c => exact explains_condition hx h
  | all cs => exact explains_all h
  | any cs => exact explains_any h
  | trees depth stack ns => exact explains_trees hx h

/-! ### Runs -/

/-- How deep references may go, and how much there is to do before. -/
def Work.rank : Work → ℕ ×ₗ ℕ
  | .condition c => toLex (0, 2 * c.subterms.length)
  | .all cs | .any cs => toLex (0, 2 * (Condition.subtermsOf cs).length + 1)
  | .trees depth _ ns => toLex (depth + 1, Node.sizeAll ns)

lemma Leads.rank_lt (h : Leads e x y) : y.1.rank < x.1.rank := by
  have operands (c : Condition) : 0 < c.subterms.length :=
    List.length_pos_of_mem c.mem_subterms_self
  have nodes (n : Node) : 0 < n.size := by
    have := Node.sizeAll_children n
    omega
  cases h <;> simp only [Work.rank, Prod.Lex.toLex_lt_toLex, Condition.subterms,
    Condition.subtermsOf, List.length_cons, List.length_append, Node.sizeAll, Node.size, true_and]
  case allRest c _ _ _ _ | anyRest c _ _ _ _ =>
    have := operands c
    omega
  case branch v _ => cases v <;> simp <;> omega
  case behind n _ _ _ _ _ =>
    have := nodes n
    omega
  all_goals omega

/-- **Points do not lead on for ever.** -/
lemma wellFounded_leads (e : Setup σ) : WellFounded fun y x => Leads e x y :=
  Subrelation.wf (fun h => h.rank_lt) (InvImage.wf (fun x : Point σ => x.1.rank) wellFounded_lt)

section

variable {origin : Option String} {d : List Node} {b : Bindings} {w : σ}

/-- What an evaluation comes to fails if it leads to a point that is stuck. -/
lemma Setup.Visits.fails_iff (hx : e.Visits origin d b w x) :
    Fails e x f ↔ ∃ y cause, Relation.ReflTransGen (Leads e) x y ∧ Stuck e y cause f := by
  constructor
  · induction x using (wellFounded_leads e).induction with
    | _ x ih =>
      intro h
      rcases h.explains hx.orderly with ⟨cause, hstuck⟩ | ⟨y, hleads, hy⟩
      · exact ⟨x, cause, .refl, hstuck⟩
      · obtain ⟨z, cause, hyz, hz⟩ := ih y hleads (hx.leads hleads) hy
        exact ⟨z, cause, .head hleads hyz, hz⟩
  · rintro ⟨y, cause, hxy, hstuck⟩
    induction hxy using Relation.ReflTransGen.head_induction_on with
    | refl => exact fails_of_stuck hstuck
    | head hleads _ ih => exact (ih (hx.leads hleads)).of_leads hleads

end

/-- **Why evaluations fail**: an evaluation fails exactly if it comes to a point that is stuck, and
with the failure of that point. -/
theorem evaluate_error_iff (e : Setup σ) (origin : Option String) (d : Document) (b : Bindings)
    (w : σ) (f : Failure) : (evaluate e origin d b w).1 = .error f ↔
      ∃ x cause, e.Visits origin d.children b w x ∧ Stuck e x cause f := by
  have hstart := e.visits_start origin d.children b w
  have hfails : (evaluate e origin d b w).1 = .error f ↔
      Fails e (.trees (depthBound e d.children) ⟨origin, [], []⟩ d.children,
        e.entered d.children ⟨b, [], [], w⟩) f := by
    rw [evaluate_on]
    unfold evaluateIn
    rw [Eval.on_bind, enter_on]
    dsimp only
    rw [Eval.on_bind_pure]
    change Except.map _ (Except.map _ ((reduceAll e _ d.children).on _).1) = _ ↔
      ((reduceAll e _ d.children).on _).1 = _
    rcases ((reduceAll e (follow e (depthBound e d.children) ⟨origin, [], []⟩) d.children).on
      (e.entered d.children ⟨b, [], [], w⟩)).1 with fault | ms
    · exact ⟨fun h => congrArg _ (Except.error.inj h), fun h => congrArg _ (Except.error.inj h)⟩
    · exact ⟨nofun, nofun⟩
  rw [hfails, hstart.fails_iff]
  constructor
  · rintro ⟨y, cause, hxy, hstuck⟩
    exact ⟨y, cause, ⟨_, enter_on e _ _, hxy⟩, hstuck⟩
  · rintro ⟨y, cause, ⟨s, hs, hxy⟩, hstuck⟩
    obtain rfl := (Prod.mk.inj ((enter_on e _ _).symm.trans hs)).2
    exact ⟨y, cause, hxy, hstuck⟩

end Evaluation

end Stencil
