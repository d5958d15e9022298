import Stencil.Command.Program
import Stencil.Proofs.Suite.Step

/-!
From the program's arguments to a command.

A call whose arguments and settings can be read comes to the command that it names, called with
those settings (`Launch.comesTo_program`). What a step of a command comes to is followed as for
the steps of a suite, with what is on the screen in place of what a run keeps.
-/

namespace Stencil.Command

variable {σ α : Type}

lemma comesTo_within (m : StateM σ α) (c : Screen × σ) :
    comesTo (within m) c = (.ok (m c.2).1, c.1, (m c.2).2) := rfl

lemma comesTo_tree (h : Host σ) (c : Screen × σ) :
    comesTo h.tree c = (.ok (h.disk.read c.2), c) := rfl

/-! ### Writing -/

/-- The step ends, and does nothing but write. -/
def OnlyWrites (x : Act σ Unit) : Prop := ∀ c, ∃ screen, comesTo x c = (.ok (), screen, c.2)

namespace OnlyWrites

lemma nothing : OnlyWrites (pure () : Act σ Unit) := fun c => ⟨c.1, rfl⟩

lemma write (s : String) : OnlyWrites (write s : Act σ Unit) := fun _ => ⟨_, rfl⟩

lemma writeError (s : String) : OnlyWrites (writeError s : Act σ Unit) := fun _ => ⟨_, rfl⟩

lemma bind {x : Act σ Unit} {f : Unit → Act σ Unit} (hx : OnlyWrites x) (hf : OnlyWrites (f ())) :
    OnlyWrites (x >>= f) := by
  intro c
  obtain ⟨screen, hx⟩ := hx c
  obtain ⟨screen', hf⟩ := hf (screen, c.2)
  exact ⟨screen', by rw [comesTo_bind, hx]; exact hf⟩

lemma whenever {p : Bool} {x : Act σ Unit} (hx : OnlyWrites x) : OnlyWrites (whenever p x) := by
  cases p
  · exact nothing
  · exact hx

lemma forM {ι : Type} {f : ι → Act σ Unit} {as : List ι} (h : ∀ a ∈ as, OnlyWrites (f a)) :
    OnlyWrites (as.forM f) := by
  induction as with
  | nil => exact nothing
  | cons a as ih =>
    obtain ⟨hfirst, hrest⟩ := List.forall_mem_cons.mp h
    exact bind hfirst (ih hrest)

/-- What comes behind writing comes to the same result, on another screen. -/
lemma exists_comesTo {x : Act σ Unit} (hx : OnlyWrites x) (f : Unit → Act σ Unit)
    (c : Screen × σ) : ∃ screen, comesTo (x >>= f) c = comesTo (f ()) (screen, c.2) := by
  obtain ⟨screen, hx⟩ := hx c
  exact ⟨screen, by rw [comesTo_bind, hx]⟩

end OnlyWrites

/-! ### Arguments -/

namespace Form

variable {f : Form}

lemma require_ok (a : α) : f.require (.ok a) = (pure a : Act σ α) := rfl

lemma noMore_nil : f.noMore [] = (pure () : Act σ Unit) := rfl

lemma read_eq_pure {mixed : Bool} {args : List String} {p : Parsed}
    (h : readArguments f.known mixed args = .ok p) :
    f.read mixed args = (pure p : Act σ Parsed) := by
  rw [read, h]
  rfl

lemma helpIfAsked_eq_pure {p : Parsed} (h : p.has helpSwitch.name = false) :
    f.helpIfAsked p = (pure () : Act σ Unit) := by
  rw [helpIfAsked, h]
  rfl

end Form

/-! ### The end of the program -/

/-- How the program ends when its steps come to a result, with a screen. -/
def endingOf : Except Stop Unit → Screen → Ending
  | .ok (), screen => { exitCode := succeeded, screen }
  | .error (.exit code), screen => { exitCode := code, screen }
  | .error (.failed f), screen => { exitCode := failedCode, screen, failure := some f }

lemma run_eq_endingOf (h : Host σ) (args : List String) (w : σ) :
    (run h args w).1 =
      endingOf (comesTo (program h args) ({}, w)).1 (comesTo (program h args) ({}, w)).2.1 := by
  rw [run, StateM.bind_apply]
  simp only [StateT.run, comesTo]
  rcases (program h args).run {} w with ⟨⟨(code | f) | _, screen⟩, w'⟩ <;> rfl

/-! ### Calling a command -/

/-- A call of a command by its name, with arguments and settings that can be read. -/
structure Launch (h : Host σ) (args : List String) (w : σ) (name : String) where
  outer : Parsed
  rest : List String
  environment : List (String × String)
  settings : Settings
  outer_read : readArguments programForm.known false args = .ok outer
  outer_plain : outer.firstOf ["version", Form.helpSwitch.name] = none
  outer_words : outer.words = name :: rest
  environment_read : environmentOf h (h.disk.read w) = .ok environment
  settings_read : Settings.load (h.disk.read w)
    (.of h.workingDirectory h.home environment [])
    (((outer.value? "config").filter (· != "")).map Files.Path.tidy) = .ok settings

namespace Launch

variable {h : Host σ} {args : List String} {w : σ} {name : String}

def session (c : Launch h args w name) : Session := ⟨c.settings, c.outer.has "quiet", c.environment⟩

lemma readProgram_eq_pure (c : Launch h args w name) :
    readProgram args = (pure c.outer : Act σ Parsed) := by
  rw [readProgram, Form.read_eq_pure c.outer_read, pure_bind, c.outer_plain]

lemma comesTo_sessionOf (c : Launch h args w name) (screen : Screen) :
    comesTo (sessionOf h c.outer) (screen, w) = (.ok c.session, screen, w) := by
  have henvironment : orFail (environmentOf h (h.disk.read w)) =
      (pure c.environment : Act σ _) := by
    rw [c.environment_read]
    rfl
  rw [sessionOf, comesTo_bind, comesTo_tree]
  dsimp only
  rw [henvironment, pure_bind, c.settings_read]
  rfl

/-- The program comes to what the command of the name comes to. -/
lemma comesTo_program (c : Launch h args w name) {verb : Verb σ}
    (hverb : commands.lookup name = some verb) (screen : Screen) :
    comesTo (program h args) (screen, w) = comesTo (verb h c.session c.rest) (screen, w) := by
  have hfind : findCommand name c.rest = (pure verb : Act σ (Verb σ)) := by
    rw [findCommand, hverb]
  rw [program, c.readProgram_eq_pure, pure_bind, c.outer_words]
  dsimp only
  rw [hfind, pure_bind, comesTo_bind, c.comesTo_sessionOf]

end Launch

/-! ### Files alone -/

deriving instance DecidableEq for Parsed

/-- A memory that keeps nothing. -/
def forgetful : Judgment.Memory Unit :=
  ⟨fun _ => ⟨.zero false, []⟩, fun _ w => w, fun _ => .zero false⟩

/-- What stands around a command where there are files and nothing else. -/
def filesAlone (tree : Files.Tree) : Host Unit where
  disk := ⟨fun _ => tree, fun _ w => w⟩
  workingDirectory := []
  home := ["home"]
  store := fun _ => ⟨fun _ => pure (.ok [])⟩
  memories := { own := forgetful, shared := forgetful }
  spare := forgetful
  time := ""

end Stencil.Command
