import Mathlib
import Stencil.Import.Loader

/-!
Where the loader for files reads, seen from its root.

The path of an import is held against the root with all links and dots followed, so that a target
within the root is read within it. What is not held against the root is the path that the template
extension makes of a target where nothing stands: it may be a link, and for the root itself it
lies beside the root.
-/

namespace Stencil.Import

open Files

variable {tree : Tree} {links : Links} {root target p : Path}

lemma isWithin_iff : Path.isWithin root p = true ↔ root <+: p := List.isPrefixOf_iff_prefix

/-- The target with the template extension put to its name. -/
def extended (target : Path) : Path := target.dropLast ++ [target.name ++ templateExtension]

/-- The template extension is put to the target: nothing stands there, and its name has no
extension. -/
def Extends (tree : Tree) (target : Path) : Prop :=
  tree.holds target = false ∧ extension target.name = ""

lemma candidate_of_extends (h : Extends tree target) :
    candidate tree target = extended target := by
  simp [candidate, extended, h.1, h.2]

lemma candidate_of_not_extends (h : ¬ Extends tree target) : candidate tree target = target := by
  unfold candidate
  rw [if_neg]
  simpa [Extends] using h

/-- What the extension leads to lies outside the root: the place behind a link that stands there,
or the place itself if the target is the root. -/
inductive Strays (tree : Tree) (links : Links) (root target : Path) : Prop where
  | link {q : Path} (hextends : Extends tree target)
    (hlink : links.target? (extended target) = some q) (hout : Path.isWithin root q = false)
  | beside (hextends : Extends tree target) (hlink : links.target? (extended target) = none)
    (hroot : target = root)

/-- The top of the file system exists always. -/
lemma Extends.ne_nil (h : Extends tree target) : target ≠ [] := by
  rintro rfl
  have hholds : tree.holds [] = true := by simp [Tree.holds, Tree.isDirectory]
  rw [h.1] at hholds
  cases hholds

lemma append_templateExtension_ne_self (name : String) : name ++ templateExtension ≠ name := by
  intro h
  have hlength := congrArg String.length h
  rw [String.length_append] at hlength
  have : templateExtension.length = 5 := rfl
  omega

/-- With the extension a target within the root stays there, unless it is the root. -/
lemma isWithin_extended_iff (hwithin : Path.isWithin root target = true) (hne : target ≠ []) :
    Path.isWithin root (extended target) = true ↔ target ≠ root := by
  obtain ⟨d, n, rfl⟩ : ∃ d n, target = d ++ [n] :=
    ⟨target.dropLast, target.getLast hne, (List.dropLast_concat_getLast hne).symm⟩
  have hextended : extended (d ++ [n]) = d ++ [n ++ templateExtension] := by
    simp [extended, Path.name]
  rw [isWithin_iff, List.prefix_concat_iff] at hwithin
  rw [hextended, isWithin_iff, List.prefix_concat_iff]
  constructor
  · rintro (heq | hprefix) rfl
    · obtain ⟨-, hlast⟩ := List.append_inj heq rfl
      exact append_templateExtension_ne_self n (List.singleton_inj.mp hlast).symm
    · have := hprefix.length_le
      rw [List.length_append, List.length_singleton] at this
      omega
  · intro hroot
    rcases hwithin with heq | hprefix
    · exact absurd heq.symm hroot
    · exact .inr hprefix

/-- **Confinement**: a document that is loaded was read at the place where its path ends once all
links are followed, and that place is within the root except exactly where the template extension
has led out of it, through a link or by going beside a root that does not exist. -/
theorem loadFile_outside_iff (tree : Tree) (links : Links) (workingDirectory root : Path)
    (path : String) (relativeTo : Option String) (key source : String)
    (h : loadFile tree links workingDirectory root path relativeTo = .ok (key, source)) :
    ∃ p q : Path, key = p.text ∧ links.walk [] p = q ∧ tree.readText q = .ok source ∧
      (Path.isWithin root q = false ↔
        Strays tree links root (fileTarget links workingDirectory root path relativeTo)) := by
  have hplain := isPlain_fileTarget links workingDirectory root path relativeTo
  obtain ⟨hwithin, hkey, hread⟩ := loadFile_eq_ok h
  refine ⟨_, _, hkey, rfl, hread, ?_⟩
  rw [walk_candidate tree hplain]
  generalize fileTarget links workingDirectory root path relativeTo = target at hplain hwithin
  by_cases hext : Extends tree target
  · rw [candidate_of_extends hext]
    rcases hlink : links.target? (extended target) with _ | q
    · have hiff := isWithin_extended_iff hwithin hext.ne_nil
      rw [Option.getD_none, ← Bool.not_eq_true, hiff, not_not]
      constructor
      · exact .beside hext hlink
      · rintro (⟨-, hsome, -⟩ | ⟨-, -, hroot⟩)
        · rw [hlink] at hsome
          cases hsome
        · exact hroot
    · rw [Option.getD_some]
      constructor
      · exact .link hext hlink
      · rintro (⟨-, hsome, hout⟩ | ⟨-, hnone, -⟩)
        · rw [hlink] at hsome
          cases hsome
          exact hout
        · rw [hlink] at hnone
          cases hnone
  · have hlink : links.target? target = none := hplain.2 _ List.prefix_rfl
    rw [candidate_of_not_extends hext, hlink, Option.getD_none, hwithin]
    constructor
    · rintro ⟨⟩
    · rintro (⟨hext', -, -⟩ | ⟨hext', -, -⟩) <;> exact absurd hext' hext

/-- Below a root that does not exist, a dot loads the file beside it that bears its name. -/
theorem loadFile_outside_missing_root :
    let tree : Tree := { entries := [⟨["home", "prompts.echo"], [115]⟩] }
    let root : Path := ["home", "prompts"]
    loadFile tree .none [] root "." none = .ok ("/home/prompts.echo", "s") ∧
      ∃ p q : Path, "/home/prompts.echo" = p.text ∧ Links.none.walk [] p = q ∧
        tree.readText q = .ok "s" ∧ Path.isWithin root q = false := by
  intro tree root
  have hload : loadFile tree .none [] root "." none = .ok ("/home/prompts.echo", "s") := by
    cbv
  obtain ⟨p, q, hkey, hq, hread, hiff⟩ :=
    loadFile_outside_iff tree .none [] root "." none _ _ hload
  refine ⟨hload, p, q, hkey, hq, hread, hiff.mpr (.beside ?_ rfl ?_)⟩
  · exact ⟨by decide +kernel, by decide +kernel⟩
  · decide +kernel

end Stencil.Import
