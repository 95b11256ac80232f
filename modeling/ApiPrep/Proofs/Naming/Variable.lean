import ApiPrep.Naming.Identifier
import ApiPrep.Proofs.Naming.Words

namespace ApiPrep.Naming

open Text

variable {c x : Rune} {s t name : List Rune}

/-- The code points that no variable holds: all of ASCII but letters, digits, underscores and
dollars, and all blanks. -/
def foreignRanges : Ranges :=
  [(0, 35), (37, 47), (58, 64), (91, 94), (96, 96), (123, 127)] ++ blankRanges

theorem foreignRanges_uncased : Uncased foreignRanges :=
  .of_apart (by decide +kernel) (by decide +kernel) (by decide) (by decide +kernel)

theorem not_foreign_of_isWordChar (h : isWordChar c = true) :
    foreignRanges.has c.toNat = false := by
  by_cases hascii : c.toNat < 128
  · have hall : ∀ c : Rune, c.toNat < 128 → isWordChar c = true →
        foreignRanges.has c.toNat = false := forall_ascii (by decide +kernel)
    exact hall c hascii h
  · have hapart : (wordRanges.all fun r => foreignRanges.all fun q =>
        Nat.blt r.2 q.1 || Nat.blt q.2 r.1) = true := by decide +kernel
    simp only [List.all_eq_true, Bool.or_eq_true, Nat.blt_eq] at hapart
    rw [isWordChar, if_neg hascii] at h
    rw [Bool.eq_false_iff]
    intro hforeign
    obtain ⟨r, hr, hrlo, hrhi⟩ := Ranges.has_iff.1 h
    obtain ⟨q, hq, hqlo, hqhi⟩ := Ranges.has_iff.1 hforeign
    have hout := hapart r hr q hq
    omega

theorem mem_uncapitalized (h : x ∈ uncapitalized s) : x ∈ s ∨ ∃ c ∈ s, x ∈ lowerChar c := by
  cases s with
  | nil => cases h
  | cons c rest =>
    rcases List.mem_append.1 h with h | h
    · have hlower : lower [c] = lowerChar c :=
        (List.append_nil _).trans (lowerHere_false c [])
      exact .inr ⟨c, List.mem_cons_self, hlower ▸ h⟩
    · exact .inl (List.mem_cons_of_mem c h)

theorem foreignRanges_spare_lowerCamelize (hs : foreignRanges.Spare s) :
    foreignRanges.Spare (lowerCamelize s) := by
  have hjoined : foreignRanges.Spare (joined true s) := by
    intro y hy
    obtain ⟨c, hc, -, rfl | hy⟩ := mem_joined hy
    · exact hs y hc
    · exact foreignRanges_uncased.upperChar (hs c hc) y hy
  intro x h
  rw [lowerCamelize, camelize_eq_joined] at h
  rcases mem_uncapitalized h with h | ⟨c, hc, hx⟩
  · exact hjoined x h
  · exact foreignRanges_uncased.lowerChar (hjoined c hc) x hx

/-! ### Names of variables -/

def cleanName (name : List Rune) : List Rune :=
  name.map fun c => if isWordChar c || c == '$' then c else '_'

/-- What a clean name becomes as a variable. -/
inductive VarForm : List Rune → List Rune → Prop
  | lone : VarForm ['_'] ['_', 'u']
  | capitals {s : List Rune} (several : s ≠ [.char '_'])
      (all : ∀ c ∈ s, c.isUpper = true ∨ c = '_') : VarForm s s
  | marked {s : List Rune} (mixed : ¬∀ c ∈ s, c.isUpper = true ∨ c = '_')
    (taken : isReserved (lowerCamelize s) = true ∨ startsWithDigit (lowerCamelize s) = true) :
    VarForm s ('_' :: lowerCamelize s)
  | words {s : List Rune} (mixed : ¬∀ c ∈ s, c.isUpper = true ∨ c = '_')
    (free : isReserved (lowerCamelize s) = false)
    (start : startsWithDigit (lowerCamelize s) = false) : VarForm s (lowerCamelize s)

theorem all_capitals_iff :
    (s.all fun c => c.isUpper || c == .char '_') = true ↔
      ∀ c ∈ s, c.isUpper = true ∨ c = .char '_' := by
  simp only [List.all_eq_true, Bool.or_eq_true, beq_iff_eq]

theorem varForm (name : List Rune) : VarForm (cleanName name) (varName name) := by
  rw [varName, ← cleanName]
  by_cases hlone : cleanName name = [.char '_']
  · rw [if_pos hlone, hlone]
    exact .lone
  · rw [if_neg hlone]
    by_cases hall : ∀ c ∈ cleanName name, c.isUpper = true ∨ c = .char '_'
    · rw [if_pos (all_capitals_iff.2 hall)]
      exact .capitals hlone hall
    · rw [if_neg (mt all_capitals_iff.1 hall)]
      dsimp only
      split
      · next htaken => exact .marked hall (Bool.or_eq_true_iff.1 htaken)
      · next hfree =>
        have hfree := Bool.or_eq_false_iff.1 (Bool.eq_false_iff.2 hfree)
        exact .words hall hfree.1 hfree.2

theorem VarForm.varName_eq (h : VarForm (cleanName name) t) : varName name = t := by
  have hlone {s : List Rune} (hmixed : ¬∀ c ∈ s, c.isUpper = true ∨ c = .char '_') :
      s ≠ [.char '_'] := by
    rintro rfl
    exact hmixed (List.forall_mem_singleton.2 (.inr rfl))
  rw [varName, ← cleanName]
  generalize cleanName name = s at h ⊢
  cases h with
  | lone => exact if_pos rfl
  | capitals several all => rw [if_neg several, if_pos (all_capitals_iff.2 all)]
  | marked mixed taken =>
    rw [if_neg (hlone mixed), if_neg (mt all_capitals_iff.1 mixed)]
    exact if_pos (Bool.or_eq_true_iff.2 taken)
  | words mixed free start =>
    rw [if_neg (hlone mixed), if_neg (mt all_capitals_iff.1 mixed)]
    exact if_neg (Bool.eq_false_iff.1 (Bool.or_eq_false_iff.2 ⟨free, start⟩))

theorem foreignRanges_spare_cleanName (name : List Rune) :
    foreignRanges.Spare (cleanName name) := by
  refine List.forall_mem_map.2 fun c _ => ?_
  split
  · next hc =>
    rw [Bool.or_eq_true, beq_iff_eq] at hc
    rcases hc with hc | rfl
    · exact not_foreign_of_isWordChar hc
    · decide
  · decide

theorem VarForm.spare (h : VarForm s t) (hs : foreignRanges.Spare s) : foreignRanges.Spare t := by
  cases h with
  | lone => decide
  | capitals => exact hs
  | marked => exact List.forall_mem_cons.2 ⟨by decide, foreignRanges_spare_lowerCamelize hs⟩
  | words => exact foreignRanges_spare_lowerCamelize hs

/-- Whatever a parameter is called, its variable holds nothing foreign. -/
theorem foreignRanges_spare_varName (name : List Rune) : foreignRanges.Spare (varName name) :=
  (varForm name).spare (foreignRanges_spare_cleanName name)

def isDelimiter (c : Rune) : Bool :=
  [Rune.char '{', '}', '(', ')', '\x22', '\x27', '\x60', '/'].contains c || isBlank c

theorem foreign_of_isDelimiter (h : isDelimiter c = true) : foreignRanges.has c.toNat = true := by
  rw [isDelimiter, Bool.or_eq_true, List.contains_iff_mem] at h
  rcases h with h | h
  · have hall : [Rune.char '{', '}', '(', ')', '\x22', '\x27', '\x60', '/'].all
        (fun d => foreignRanges.has d.toNat) = true := by decide
    exact List.all_eq_true.1 hall c h
  · obtain ⟨r, hr, hb⟩ := Ranges.has_iff.1 h
    exact Ranges.has_iff.2 ⟨r, List.mem_append_right _ hr, hb⟩

theorem not_delimiter_of_mem_varName (h : x ∈ varName name) : isDelimiter x = false := by
  rw [Bool.eq_false_iff]
  intro hx
  have hforeign := foreign_of_isDelimiter hx
  rw [foreignRanges_spare_varName name x h] at hforeign
  cases hforeign

end ApiPrep.Naming
