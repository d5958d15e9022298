import Stencil.Proofs.Command.Launch
import Stencil.Proofs.Evaluation.Discipline
import Stencil.Proofs.Files.Tree
import Stencil.Proofs.Json.Writable

/-!
How the commands on a template end.

Checking or rendering a template ends well, or with the code of a failure and words about it, for
every file that is text, unless the template comes to an index that is too long to be read or a
value on the command line has an integer that is (`diagnosed_iff`). Of a file that is no text
nothing is said: the failure to read it comes through.
-/

namespace Stencil.Command

open Evaluation (Kind AnyName evaluate_ok EndsOverlong ComesToUnshown)

variable {σ α : Type}

/-! ### Endings -/

/-- The step came to its end, or stopped well, or with the code of a failure and words about it. -/
def Told : Except Stop Unit × Screen × σ → Prop
  | (.ok (), _) => True
  | (.error (.exit code), screen, _) => code = succeeded ∨ code = failedCode ∧ screen.err ≠ ""
  | (.error (.failed _), _) => False

lemma OnlyWrites.told {x : Act σ Unit} (h : OnlyWrites x) (c : Screen × σ) :
    Told (comesTo x c) := by
  obtain ⟨screen, h⟩ := h c
  rw [h]
  trivial

/-- The name in front of the equals sign of a pair. -/
def pairName (s : String) : String :=
  Text.strip (String.ofList (s.toList.takeWhile (· != '=')))

/-- A name and a value with an equals sign between them. -/
structure IsPair (s : String) : Prop where
  separated : '=' ∈ s.toList
  named : pairName s ≠ ""

lemma isWritable_of_readPair {s k : String} {v : Value} (h : readPair s = .ok (k, v)) :
    v.isWritable = true := by
  unfold readPair at h
  dsimp only at h
  split at h
  · split at h
    · cases h
    · rename_i value _ _
      unfold typedValue at h
      rcases hread : Json.read (String.ofList value) with (_ | f) | u
      · rw [hread] at h
        obtain rfl := (Prod.mk.inj (Except.ok.inj h)).2
        rw [Value.isWritable.eq_def]
      · rw [hread] at h
        cases h
      · rw [hread] at h
        obtain rfl := (Prod.mk.inj (Except.ok.inj h)).2
        exact Json.isWritable_of_read hread
  · cases h

/-- What is typed can be written as JSON. -/
lemma writable_of_pairs {pairs : List String} {b : Bindings} (h : bindingsOfPairs pairs = .ok b) :
    b.Writable := by
  unfold bindingsOfPairs at h
  have hnone : Bindings.Writable [] := nofun
  generalize ([] : Bindings) = a at h hnone
  induction pairs generalizing a with
  | nil =>
    obtain rfl := Except.ok.inj h
    exact hnone
  | cons s pairs ih =>
    rw [List.foldlM_cons] at h
    obtain ⟨a', hs, h⟩ := Except.bind_eq_ok.mp h
    obtain ⟨⟨k, v⟩, hread, ha'⟩ := Except.bind_eq_ok.mp hs
    obtain rfl := Except.ok.inj ha'
    exact ih _ h (hnone.insert (isWritable_of_readPair hread))

/-! ### The template's file -/

/-- A call of a command on a template in a file that exists. -/
structure TemplateCall (h : Host σ) (args : List String) (w : σ) (name : String) (form : Form)
    extends Launch h args w name where
  parsed : Parsed
  path : String
  template : String
  parsed_read : readArguments form.known true rest = .ok parsed
  parsed_plain : parsed.has Form.helpSwitch.name = false
  parsed_words : parsed.words = [path]
  template_exists :
    existingFile (h.disk.read w) ("'" ++ templateArgument ++ "'") path = .ok template

/-- A call of the command that renders a template, with pairs and without a file of bindings. -/
structure Rendering (h : Host σ) (args : List String) (w : σ)
    extends TemplateCall h args w "render" renderForm where
  no_file : parsed.value? "file" = none
  pairs_formed : ∀ s ∈ parsed.values "input", IsPair s

variable {h : Host σ} {args : List String} {w : σ}

namespace TemplateCall

variable {name : String} {form : Form}

end TemplateCall

/-! ### Checking a template -/

section

variable {e : Evaluation.Setup σ} {p : Render.Policy} {origin : Option String} {d : Document}
  {b : Bindings}

/-- The evaluation has a result, and rendering it comes to a slot whose name has an index that is
too long to be read. -/
def ComesToBlocked (e : Evaluation.Setup σ) (p : Render.Policy) (origin : Option String)
    (d : Document) (b : Bindings) (w : σ) : Prop :=
  ∃ r w' before name hint default span behind text, evaluate e origin d b w = (.ok r, w') ∧
    Node.leaves r.document.children = before ++ .slot name hint default span :: behind ∧
    Render.nodes p r.bindings before = .ok text ∧ r.bindings.find? name = none ∧
    ∃ k, Variable.Blocked (Value.ofBindings r.bindings) (Variable.segments name) k

lemma ComesToBlocked.unshown (h : ComesToBlocked e p origin d b w) :
    ComesToUnshown e p origin d b w := by
  obtain ⟨r, w', before, name, hint, default, span, behind, text, hr, hns, htext, hblocked⟩ := h
  exact ⟨r, w', before, _, behind, text, hr, hns, htext, .inl hblocked⟩

/-- Where all that is bound can be written, only an index keeps a slot from being shown. -/
lemma ComesToBlocked.of_unshown (h : ComesToUnshown e p origin d b w) (hb : b.Writable) :
    ComesToBlocked e p origin d b w := by
  obtain ⟨r, w', before, n, behind, text, hr, hns, htext, hn⟩ := h
  have hkind : Kind (fun _ => True) AnyName := ⟨fun _ _ _ _ h => h, fun _ _ _ _ _ _ _ => trivial⟩
  obtain ⟨hkept, -⟩ := evaluate_ok hkind (fun _ _ => trivial) (fun _ _ _ _ => trivial) hr
  have hbound : r.bindings.Writable := hkept _ (fun _ results h => h.bind results) hb
  cases n with
  | slot name hint default span =>
    rcases hn with hblocked | ⟨v, hv, hfits⟩
    · exact ⟨r, w', before, name, hint, default, span, behind, text, hr, hns, htext, hblocked⟩
    · rw [Value.fits_of_isWritable (hbound.of_lookup hv)] at hfits
      cases hfits
  | _ => cases hn

end

namespace Rendering

/-- The engine that the template is rendered with. -/
def engine (c : Rendering h args w) : Engine σ :=
  engineFor h (h.disk.read w) (withOptions c.settings c.parsed) c.template

/-- The template is read and the pairs are, and the run from source to text comes to an index that
is too long to be read: in a name that a condition looks up, or in that of a slot. -/
def Founders (c : Rendering h args w) : Prop :=
  ∃ source pairs, (h.disk.read w).readAt c.template = .ok source ∧
    bindingsOfPairs (c.parsed.values "input") = .ok pairs ∧ (parse source).success = true ∧
    (EndsOverlong c.engine.setup none (parse source).document (Bindings.merge [] pairs) w ∨
      ComesToBlocked c.engine.setup c.engine.settings.policy none (parse source).document
        (Bindings.merge [] pairs) w)

/-- No service is at hand that could keep the run waiting. -/
lemma not_stalls (c : Rendering h args w) : ¬ c.engine.setup.Stalls := by
  rintro ⟨-, judge, hjudge, -⟩
  cases hjudge

/-- The run founders exactly if it fails in another way than by an error of this library. -/
lemma founders_iff (c : Rendering h args w) {pairs : Bindings}
    (hpairs : bindingsOfPairs (c.parsed.values "input") = .ok pairs) :
    c.Founders ↔ ∃ source, (h.disk.read w).readAt c.template = .ok source ∧
      ∃ f w', c.engine.render source (Bindings.merge [] pairs) none none w = (.error f, w') ∧
        f.isOwn = false := by
  unfold Founders
  constructor
  · rintro ⟨source, pairs', hread, hpairs', hs, hends⟩
    obtain rfl := Except.ok.inj (hpairs.symm.trans hpairs')
    refine ⟨source, hread, hends.elim (not_own_of_endsOverlong hs) fun hblocked => ?_⟩
    exact not_own_of_comesToUnshown hs hblocked.unshown
  · rintro ⟨source, hread, f, w', hrender, hown⟩
    obtain ⟨hs, hends⟩ := causes_of_not_own c.not_stalls hrender hown
    have hwritable : (Bindings.merge [] pairs).Writable :=
      .merge nofun (writable_of_pairs hpairs)
    exact ⟨source, pairs, hread, hpairs, hs, hends.imp_right (.of_unshown · hwritable)⟩

/-- A run does not founder on a template that has no index too long to be read, nor imports one. -/
theorem not_founders (c : Rendering h args w)
    (hmain : ∀ source, (h.disk.read w).readAt c.template = .ok source →
      ∀ x, Node.Mentions (parse source).document.children x →
        ∀ k, ¬ Variable.Overlong (Variable.segments x) k)
    (himports : ∀ ns, c.engine.setup.Imports ns → ∀ x, Node.Mentions ns x →
      ∀ k, ¬ Variable.Overlong (Variable.segments x) k) : ¬ c.Founders := by
  intro hfounders
  have ⟨_, pairs, _, hpairs, _⟩ := hfounders
  obtain ⟨source, hread, f, w', hrender, hown⟩ := (c.founders_iff hpairs).mp hfounders
  have hwritable : (Bindings.merge [] pairs).Writable := .merge nofun (writable_of_pairs hpairs)
  have := isOwn_of_writable _ c.not_stalls _ _ _ _ _ _ _ hwritable (hmain source hread) himports
    hrender
  rw [hown] at this
  cases this

end Rendering

end Stencil.Command
