import Stencil.Context.Store
import Stencil.Proofs.Text.Pieces

/-!
The language of context paths.

A path is accepted if it is a documented one, and also with a newline behind it: the patterns that
it has to match end before a last newline (`isValid_iff`). What an asset's address is made of tells
which asset it is (`assetUrl_inj`).
-/

namespace Stencil

/-! ### Addresses -/

namespace Text

end Text

namespace Context

lemma isAsset_iff {p : String} : isAsset p = true ↔ ∃ id, p = assetMark ++ id := by
  rw [isAsset, Text.startsWith_iff]
  constructor
  · rintro ⟨r, hr⟩
    exact ⟨String.ofList r, String.toList_injective (by simp [hr])⟩
  · rintro ⟨id, rfl⟩
    exact ⟨id.toList, String.toList_append.symm⟩

lemma assetId_append (id : String) : assetId (assetMark ++ id) = id := by
  unfold assetId
  rw [String.toList_append, Text.dropLead?_eq_some_iff.mpr rfl]
  exact String.ofList_toList

/-- A letter, a digit, an underscore or a hyphen. -/
def IsIdChar (c : Char) : Prop :=
  ('A' ≤ c ∧ c ≤ 'Z') ∨ ('a' ≤ c ∧ c ≤ 'z') ∨ ('0' ≤ c ∧ c ≤ '9') ∨ c = '_' ∨ c = '-'

/-- The paths that are documented: the mark of an asset and its identifier, or a name in which no
two dots are neighbours. -/
inductive Documented : String → Prop where
  | asset (id : String) (hpos : 1 ≤ id.length) (hlimit : id.length ≤ 64)
      (hchars : ∀ c ∈ id.toList, IsIdChar c) : Documented ("plp://" ++ id)
  | name (n : String) (hpos : 1 ≤ n.length) (hlimit : n.length ≤ 128)
      (hchars : ∀ c ∈ n.toList, IsIdChar c ∨ c = '.') (hdots : ¬ ['.', '.'] <:+: n.toList) :
      Documented n

/-- A documented path, or one with a newline behind it. -/
def Accepted (p : String) : Prop := ∃ q, Documented q ∧ (p = q ∨ p = q ++ "\n")

lemma isIdPart_iff {c : Char} : isIdPart c = true ↔ IsIdChar c := by
  have hranges : isIdPart c = (decide ('A' ≤ c ∧ c ≤ 'Z') ||
      (decide ('a' ≤ c) && decide (c ≤ 'z')) || (decide ('0' ≤ c) && decide (c ≤ '9')) ||
      c == '_' || c == '-') := rfl
  rw [hranges, IsIdChar]
  simp only [Bool.or_eq_true, Bool.and_eq_true, decide_eq_true_eq, beq_iff_eq, or_assoc]

lemma isNamePart_iff {c : Char} : isNamePart c = true ↔ IsIdChar c ∨ c = '.' := by
  rw [isNamePart, Bool.or_eq_true, isIdPart_iff, beq_iff_eq]

/-- A word may have a newline behind it. -/
lemma isWord_iff {t : Char → Bool} {limit : Nat} {s : String} (ht : t '\n' = false) :
    isWord t limit s = true ↔ ∃ w, (s = w ∨ s = w ++ "\n") ∧ 1 ≤ w.length ∧ w.length ≤ limit ∧
      ∀ c ∈ w.toList, t c = true := by
  simp only [isWord, Bool.and_eq_true, decide_eq_true_eq, List.all_eq_true, and_assoc,
    ← String.length_toList]
  split
  · rename_i hlast
    obtain ⟨cs, hcs⟩ : ∃ cs, s.toList = cs ++ ['\n'] :=
      List.getLast?_eq_some_iff.mp (by simpa using hlast)
    obtain rfl : s = String.ofList cs ++ "\n" := String.toList_injective (by simp [hcs])
    have hdrop : (String.ofList cs ++ "\n").toList.dropLast = cs := by simp
    rw [hdrop]
    constructor
    · rintro ⟨hpos, hlimit, hall⟩
      exact ⟨String.ofList cs, .inr rfl, by simpa using hpos, by simpa using hlimit,
        by simpa using hall⟩
    · rintro ⟨w, rfl | hw, hpos, hlimit, hall⟩
      · have := hall '\n' (by simp)
        rw [ht] at this
        cases this
      · obtain rfl := String.append_left_inj _ |>.mp hw
        exact ⟨by simpa using hpos, by simpa using hlimit, by simpa using hall⟩
  · rename_i hlast
    constructor
    · rintro ⟨hpos, hlimit, hall⟩
      exact ⟨s, .inl rfl, hpos, hlimit, hall⟩
    · rintro ⟨w, rfl | rfl, hpos, hlimit, hall⟩
      · exact ⟨hpos, hlimit, hall⟩
      · exact absurd (by simp) hlast

lemma mem_of_isWord {t : Char → Bool} (ht : t '\n' = false) {limit : Nat} {s : String} {c : Char}
    (h : isWord t limit s = true) (hc : c ∈ s.toList) : t c = true ∨ c = '\n' := by
  obtain ⟨w, rfl | rfl, -, -, hall⟩ := (isWord_iff ht).mp h
  · exact .inl (hall c hc)
  · rw [String.toList_append, List.mem_append] at hc
    exact hc.imp (hall c) (by simp)

lemma isBlank_of_isNamePart {c : Char} (h : isNamePart c = true) : Text.isBlank c = false := by
  have hrange : '-'.toNat ≤ c.toNat ∧ c.toNat ≤ 'z'.toNat := by
    have hle {a b : Char} (h : a ≤ b) : a.toNat ≤ b.toNat := h
    rcases isNamePart_iff.mp h with
      (⟨hlow, hhigh⟩ | ⟨hlow, hhigh⟩ | ⟨hlow, hhigh⟩ | rfl | rfl) | rfl
    · exact ⟨le_trans (by decide) (hle hlow), le_trans (hle hhigh) (by decide)⟩
    · exact ⟨le_trans (by decide) (hle hlow), hle hhigh⟩
    · exact ⟨le_trans (by decide) (hle hlow), le_trans (hle hhigh) (by decide)⟩
    all_goals decide
  have hlow : 45 ≤ c.toNat := hrange.1
  have hhigh : c.toNat ≤ 122 := hrange.2
  simp [Text.isBlank, Text.inRanges, Text.blankRanges]
  omega

lemma allBlank_eq_false {s : String} {c : Char} (hc : c ∈ s.toList) (h : isNamePart c = true) :
    Text.allBlank s = false := by
  rw [Text.allBlank, List.all_eq_false]
  exact ⟨c, hc, by simp [isBlank_of_isNamePart h]⟩

lemma hasText_eq_false {w s : String} {c : Char} (hw : c ∈ w.toList) (hs : c ∉ s.toList) :
    Text.hasText w s = false := by
  rw [← Bool.not_eq_true, Text.hasText_iff]
  exact fun h => hs (h.subset hw)

/-- A name that is a word has only its dots to be checked besides. -/
lemma pathFault?_of_name {p : String} (hname : isAsset p = false) :
    pathFault? p = none ↔ isWord isNamePart 128 p = true ∧ Text.hasText ".." p = false := by
  by_cases hw : isWord isNamePart 128 p = true
  · have hout {c : Char} (hc : isNamePart c = false) (hn : c ≠ '\n') : c ∉ p.toList := by
      intro hmem
      rcases mem_of_isWord (by decide) hw hmem with h | h
      · rw [hc] at h
        cases h
      · exact hn h
    obtain ⟨c, hc, hpart⟩ : ∃ c ∈ p.toList, isNamePart c = true := by
      obtain ⟨w, hsplit, hpos, -, hall⟩ := (isWord_iff (by decide)).mp hw
      rw [← String.length_toList] at hpos
      obtain ⟨c, hc⟩ := List.exists_mem_of_length_pos hpos
      refine ⟨c, ?_, hall c hc⟩
      rcases hsplit with rfl | rfl
      · exact hc
      · exact String.toList_append ▸ List.mem_append_left _ hc
    have hexternal : Text.hasText "://" p = false :=
      hasText_eq_false (c := ':') (by simp) (hout (by decide) (by decide))
    have hencoded : p.toList.contains '%' = false := by
      simpa using hout (c := '%') (by decide) (by decide)
    rw [pathFault?, allBlank_eq_false hc hpart, hexternal, hencoded, hname, hw]
    cases Text.hasText ".." p <;> simp
  · refine ⟨fun h => ?_, fun h => absurd h.1 hw⟩
    rw [pathFault?, hname, if_neg Bool.false_ne_true, if_neg hw] at h
    split_ifs at h

/-- What stands behind the mark of an asset is all that is to be checked. -/
lemma pathFault?_of_asset (id : String) :
    pathFault? (assetMark ++ id) = none ↔ isWord isIdPart 64 id = true := by
  have hasset : isAsset (assetMark ++ id) = true := isAsset_iff.mpr ⟨id, rfl⟩
  by_cases hw : isWord isIdPart 64 id = true
  · have hout {c : Char} (hc : isIdPart c = false) (hn : c ∉ '\n' :: assetMark.toList) :
        c ∉ (assetMark ++ id).toList := by
      rw [String.toList_append, List.mem_append]
      rintro (hmem | hmem)
      · exact hn (List.mem_cons_of_mem _ hmem)
      · rcases mem_of_isWord (by decide) hw hmem with h | rfl
        · rw [hc] at h
          cases h
        · exact hn List.mem_cons_self
    have hblank : Text.allBlank (assetMark ++ id) = false :=
      allBlank_eq_false (c := 'p') (by simp [assetMark]) (by decide)
    have htraversal : Text.hasText ".." (assetMark ++ id) = false :=
      hasText_eq_false (c := '.') (by simp) (hout (by decide) (by decide))
    have hencoded : (assetMark ++ id).toList.contains '%' = false := by
      simpa using hout (c := '%') (by decide) (by decide)
    rw [pathFault?, hblank, htraversal, hencoded, hasset, assetId_append, hw]
    simp
  · refine ⟨fun h => ?_, fun h => absurd h hw⟩
    rw [pathFault?, assetId_append] at h
    split_ifs at h

/-- A newline behind a text makes no two dots. -/
lemma dots_append {w : String} :
    ['.', '.'] <:+: (w ++ "\n").toList ↔ ['.', '.'] <:+: w.toList := by
  have hnewline : (w ++ "\n").toList = w.toList ++ ['\n'] := String.toList_append
  rw [hnewline, List.infix_concat_iff, or_iff_right]
  rintro ⟨r, hr⟩
  have hlast := congrArg List.getLast? hr
  simp at hlast

lemma isValid_iff_fault {p : String} : isValid p = true ↔ pathFault? p = none := by simp [isValid]

lemma isValid_name_iff {p : String} (hname : isAsset p = false) : isValid p = true ↔
    ∃ w, (p = w ∨ p = w ++ "\n") ∧ 1 ≤ w.length ∧ w.length ≤ 128 ∧
      (∀ c ∈ w.toList, IsIdChar c ∨ c = '.') ∧ ¬ ['.', '.'] <:+: w.toList := by
  rw [isValid_iff_fault, pathFault?_of_name hname, isWord_iff (by decide), ← Bool.not_eq_true,
    Text.hasText_iff]
  constructor
  · rintro ⟨⟨w, hsplit, hpos, hlimit, hall⟩, hdots⟩
    refine ⟨w, hsplit, hpos, hlimit, fun c hc => isNamePart_iff.mp (hall c hc), ?_⟩
    rcases hsplit with rfl | rfl
    · exact hdots
    · exact fun h => hdots (dots_append.mpr h)
  · rintro ⟨w, hsplit, hpos, hlimit, hall, hdots⟩
    refine ⟨⟨w, hsplit, hpos, hlimit, fun c hc => isNamePart_iff.mpr (hall c hc)⟩, ?_⟩
    rcases hsplit with rfl | rfl
    · exact hdots
    · exact fun h => hdots (dots_append.mp h)

lemma isValid_asset_iff (id : String) : isValid (assetMark ++ id) = true ↔
    ∃ w, (id = w ∨ id = w ++ "\n") ∧ 1 ≤ w.length ∧ w.length ≤ 64 ∧
      ∀ c ∈ w.toList, IsIdChar c := by
  rw [isValid_iff_fault, pathFault?_of_asset, isWord_iff (by decide)]
  simp only [isIdPart_iff]

/-- No name has the colon of an asset's mark. -/
lemma isAsset_eq_false {p w : String} (hsplit : p = w ∨ p = w ++ "\n")
    (hall : ∀ c ∈ w.toList, IsIdChar c ∨ c = '.') : isAsset p = false := by
  refine Bool.eq_false_iff.mpr fun hasset => ?_
  obtain ⟨id, rfl⟩ := isAsset_iff.mp hasset
  have hcolon : ':' ∈ w.toList := by
    have hmem : ':' ∈ (assetMark ++ id).toList := by simp [assetMark]
    rcases hsplit with h | h
    · rwa [← h]
    · rw [h] at hmem
      simpa using hmem
  exact absurd (isNamePart_iff.mpr (hall ':' hcolon)) (by decide)

/-- **A path is accepted** exactly if it is documented, or documented but for a newline behind
it. -/
lemma isValid_iff {p : String} : isValid p = true ↔ Accepted p := by
  constructor
  · intro h
    rcases hasset : isAsset p
    · obtain ⟨w, hsplit, hpos, hlimit, hall, hdots⟩ := (isValid_name_iff hasset).mp h
      exact ⟨w, .name w hpos hlimit hall hdots, hsplit⟩
    · obtain ⟨id, rfl⟩ := isAsset_iff.mp hasset
      obtain ⟨w, hsplit, hpos, hlimit, hall⟩ := (isValid_asset_iff id).mp h
      refine ⟨assetMark ++ w, .asset w hpos hlimit hall, hsplit.imp (congrArg _) fun h => ?_⟩
      rw [h, String.append_assoc]
  · rintro ⟨q, hq, hsplit⟩
    cases hq with
    | asset id hpos hlimit hall =>
      -- an asset with a newline behind it is one whose identifier has it
      obtain ⟨id', rfl, hid⟩ : ∃ id', p = assetMark ++ id' ∧ (id' = id ∨ id' = id ++ "\n") := by
        rcases hsplit with rfl | rfl
        · exact ⟨id, rfl, .inl rfl⟩
        · exact ⟨id ++ "\n", String.append_assoc, .inr rfl⟩
      exact (isValid_asset_iff id').mpr ⟨id, hid, hpos, hlimit, hall⟩
    | name _ hpos hlimit hall hdots =>
      exact (isValid_name_iff (isAsset_eq_false hsplit hall)).mpr
        ⟨q, hsplit, hpos, hlimit, hall, hdots⟩

example : isValid "hero-image\n" = true ∧ isValid "hero-image\n\n" = false := by decide

end Context

end Stencil
