import ApiPrep.Proofs.Naming.MethodName
import ApiPrep.Proofs.Naming.Recovery
import ApiPrep.Proofs.Naming.Variable

namespace ApiPrep.Naming

open Text

variable {c : Rune} {s t name : List Rune}

/-- What may be the name of a variable: a text that is not empty, is no reserved word, does not
start with a digit and holds nothing of ASCII but letters, digits, underscores and dollars. -/
structure IsVariableName (name : List Rune) : Prop where
  ne_nil : name ≠ []
  free : Text.ofList name ∉ reservedWords
  start : startsWithDigit name = false
  ascii : ∀ c ∈ name, c.toNat < 128 → c.isAlphanum = true ∨ c = '_' ∨ c = '$'

/-! ### Characters of a clean name -/

theorem own_of_not_foreign (hascii : c.toNat < 128) (h : foreignRanges.has c.toNat = false) :
    c.isAlphanum = true ∨ c = '_' ∨ c = '$' := by
  have hall : ∀ c : Rune, c.toNat < 128 → foreignRanges.has c.toNat = false →
      c.isAlphanum = true ∨ c = '_' ∨ c = '$' := forall_ascii (by decide +kernel)
  exact hall c hascii h

theorem eq_underscore_of_isSeparator (hc : isSeparator c = true)
    (h : foreignRanges.has c.toNat = false) : c = '_' := by
  rw [isSeparator_eq_has] at hc
  obtain ⟨r, hr, hlo, hhi⟩ := Ranges.has_iff.1 hc
  have hnone : ¬∃ q ∈ foreignRanges, q.1 ≤ c.toNat ∧ c.toNat ≤ q.2 := by
    rw [← Ranges.has_iff, h]
    exact Bool.false_ne_true
  rcases List.mem_cons.1 hr with rfl | hr
  · exact absurd ⟨(37, 47), by decide, by dsimp only at *; omega⟩ hnone
  · rcases List.mem_cons.1 hr with rfl | hr
    · exact Rune.toNat_inj.1 (Nat.le_antisymm hhi hlo)
    · exact absurd ⟨r, List.mem_append_right _ hr, hlo, hhi⟩ hnone

theorem isDigit_of_capital (h : c.isUpper = true ∨ c = '_') : isDigit c = false := by
  have hascii : ∀ c : Rune, c.toNat < 128 → c.isUpper = true → isDigit c = false :=
    forall_ascii (by decide +kernel)
  rcases h with h | rfl
  · have halpha : c.isAlpha = true := Bool.or_eq_true_iff.2 (.inl h)
    exact hascii c (lt_of_isAlphanum (isAlphanum_of_isAlpha halpha)) h
  · decide

/-! ### Words that are not reserved -/

theorem not_reserved_of_underscore (h : .char '_' ∈ s) : Text.ofList s ∉ reservedWords := by
  intro hs
  have hletters := isAlpha_of_mem_reserved hs
  rw [Text.toList_ofList] at hletters
  exact absurd (hletters ('_') h) (by decide)

theorem not_reserved_of_capitals (h : ∀ c ∈ s, c.isUpper = true ∨ c = '_') :
    Text.ofList s ∉ reservedWords := by
  intro hs
  obtain ⟨x, hx, hown⟩ := exists_ownLetters_of_mem hs
  rw [Text.toList_ofList] at hx
  have hsmall : ∀ c : Rune, c.toNat < 128 → ownLetters.has c.toNat = true →
      ¬(c.isUpper = true ∨ c = '_') := forall_ascii (by decide +kernel)
  exact hsmall x (lt_of_ownLetters hown) hown (h x hx)

theorem not_mem_of_not_isReserved (h : isReserved s = false) : Text.ofList s ∉ reservedWords := by
  rw [isReserved, Bool.or_eq_false_iff] at h
  rw [← List.contains_iff_mem, h.1]
  exact Bool.false_ne_true

/-! ### Variables of all names -/

theorem lowerCamelize_ne_nil (hs : foreignRanges.Spare s)
    (hmixed : ¬∀ c ∈ s, c.isUpper = true ∨ c = '_') : lowerCamelize s ≠ [] := by
  intro hnil
  have hblank : blank (lowerCamelize s) = true := by rw [hnil]; rfl
  refine hmixed fun c hc => .inr ?_
  exact eq_underscore_of_isSeparator (blank_lowerCamelize_iff.1 hblank c hc) (hs c hc)

theorem VarForm.isVariableName (h : VarForm s t) (hs : foreignRanges.Spare s) (hne : s ≠ []) :
    IsVariableName t := by
  have hascii : ∀ c ∈ t, c.toNat < 128 → c.isAlphanum = true ∨ c = '_' ∨ c = '$' :=
    fun c hc hlt => own_of_not_foreign hlt (h.spare hs c hc)
  cases h with
  | lone => exact ⟨List.cons_ne_nil _ _, by decide, rfl, hascii⟩
  | capitals _ all =>
    refine ⟨hne, not_reserved_of_capitals all, ?_, hascii⟩
    cases s with
    | nil => rfl
    | cons c rest => exact isDigit_of_capital (all c List.mem_cons_self)
  | marked =>
    exact ⟨List.cons_ne_nil _ _, not_reserved_of_underscore List.mem_cons_self, rfl, hascii⟩
  | words mixed free start =>
    exact ⟨lowerCamelize_ne_nil hs mixed, not_mem_of_not_isReserved free, start, hascii⟩

/-- Whatever a parameter is called, a variable may be called by what it becomes. -/
theorem isVariableName_varName (h : name ≠ []) : IsVariableName (varName name) := by
  have hclean : cleanName name ≠ [] := mt List.map_eq_nil_iff.1 h
  exact (varForm name).isVariableName (foreignRanges_spare_cleanName name) hclean

theorem isVariableName_varName_ligature :
    "\ufb01".runes ≠ [] ∧ varName "\ufb01".runes = "fI".runes ∧
      IsVariableName (varName "\ufb01".runes) :=
  ⟨by decide, by decide +kernel, isVariableName_varName (by decide)⟩

/-! ### Variables of variables -/

/-- Words in one as they stand in a variable of ASCII: without separators, and without a capital
at the start. -/
structure IsJoined (s : List Rune) : Prop where
  chars : ∀ c ∈ s, c.isAlphanum = true ∨ c = '$'
  start : ∃ c rest, s = c :: rest ∧ c.isUpper = false

theorem plain_of_own (h : c.isAlphanum = true ∨ c = '$') : isSeparator c = false := by
  rcases h with h | rfl
  · exact isSeparator_of_isAlphanum h
  · decide

theorem recased_of_own (h : c.isAlphanum = true ∨ c = '$') :
    (upperChar c = [c.toUpper] ∧ (c.toUpper.isAlphanum = true ∨ c.toUpper = '$')) ∧
      (lower [c] = [c.toLower] ∧ (c.toLower.isAlphanum = true ∨ c.toLower = '$') ∧
        c.toLower.isUpper = false) ∧ (c.isUpper = false → lower [c.toUpper] = [c]) := by
  have hascii : ∀ c : Rune, c.toNat < 128 → (c.isAlphanum = true ∨ c = '$') →
      (upperChar c = [c.toUpper] ∧ (c.toUpper.isAlphanum = true ∨ c.toUpper = '$')) ∧
        (lower [c] = [c.toLower] ∧ (c.toLower.isAlphanum = true ∨ c.toLower = '$') ∧
          c.toLower.isUpper = false) ∧ (c.isUpper = false → lower [c.toUpper] = [c]) :=
    forall_ascii (by decide +kernel)
  refine hascii c ?_ h
  rcases h with h | rfl
  · exact lt_of_isAlphanum h
  · decide

theorem isJoined_lowerCamelize (hs : ∀ c ∈ s, c.isAlphanum = true ∨ c = '_' ∨ c = '$')
    (hne : lowerCamelize s ≠ []) : IsJoined (lowerCamelize s) := by
  have hjoined : ∀ x ∈ joined true s, x.isAlphanum = true ∨ x = '$' := by
    intro x hx
    obtain ⟨c, hc, hsep, hx⟩ := mem_joined hx
    have hown : c.isAlphanum = true ∨ c = '$' := by
      refine (hs c hc).imp_right fun h => h.resolve_left ?_
      rintro rfl
      exact absurd hsep (by decide)
    rcases hx with rfl | hx
    · exact hown
    · obtain ⟨⟨hupper, hletter⟩, -⟩ := recased_of_own hown
      rw [hupper, List.mem_singleton] at hx
      exact hx ▸ hletter
  rw [lowerCamelize, camelize_eq_joined] at hne ⊢
  cases hj : joined true s with
  | nil => exact absurd (by rw [hj]; rfl) hne
  | cons c rest =>
    rw [hj] at hjoined
    obtain ⟨hc, hrest⟩ := List.forall_mem_cons.1 hjoined
    obtain ⟨-, ⟨hlower, hletter, hsmall⟩, -⟩ := recased_of_own hc
    have hfirst : uncapitalized (c :: rest) = c.toLower :: rest := by
      rw [uncapitalized, hlower, List.singleton_append]
    rw [hfirst]
    exact ⟨List.forall_mem_cons.2 ⟨hletter, hrest⟩, _, _, rfl, hsmall⟩

theorem IsJoined.lowerCamelize_eq (h : IsJoined s) : lowerCamelize s = s := by
  obtain ⟨c, rest, rfl, hsmall⟩ := h.start
  have hplain : ∀ x ∈ c :: rest, isSeparator x = false := fun x hx => plain_of_own (h.chars x hx)
  obtain ⟨⟨hupper, -⟩, -, hback⟩ := recased_of_own (h.chars c List.mem_cons_self)
  rw [lowerCamelize, camelize_plain (List.cons_ne_nil c rest) hplain, capitalized, hupper,
    List.singleton_append, uncapitalized, hback hsmall, List.singleton_append]

theorem lowerCamelize_underscore (s : List Rune) : lowerCamelize ('_' :: s) = lowerCamelize s := by
  rw [lowerCamelize, lowerCamelize, camelize_eq_joined, camelize_eq_joined]
  rfl

theorem IsJoined.mixed (h : IsJoined s) : ∃ c ∈ s, ¬(c.isUpper = true ∨ c = '_') := by
  obtain ⟨c, rest, rfl, hsmall⟩ := h.start
  refine ⟨c, List.mem_cons_self, ?_⟩
  rintro (hupper | rfl)
  · rw [hsmall] at hupper
    cases hupper
  · exact absurd (h.chars ('_') List.mem_cons_self) (by decide)

/-- What a clean name becomes is what it becomes again, the underscore in front included. -/
theorem VarForm.again (h : VarForm s t) (hne : s ≠ [.char '_'])
    (hs : ∀ c ∈ s, c.isAlphanum = true ∨ c = .char '_' ∨ c = .char '$')
    (hspare : foreignRanges.Spare s) :
    VarForm t t ∧ ∀ c ∈ t, c.isAlphanum = true ∨ c = .char '_' ∨ c = .char '$' := by
  have hwords (hmixed : ¬∀ c ∈ s, c.isUpper = true ∨ c = .char '_') : IsJoined (lowerCamelize s) :=
    isJoined_lowerCamelize hs (lowerCamelize_ne_nil hspare hmixed)
  cases h with
  | lone => exact absurd rfl hne
  | capitals several all => exact ⟨.capitals several all, hs⟩
  | marked mixed taken =>
    have hjoined := hwords mixed
    generalize lowerCamelize s = j at hjoined taken
    obtain ⟨c, hc, hmixed⟩ := hjoined.mixed
    have hself : lowerCamelize (.char '_' :: j) = j :=
      (lowerCamelize_underscore j).trans hjoined.lowerCamelize_eq
    constructor
    · have hform := VarForm.marked (s := .char '_' :: j)
        (fun hall => hmixed (hall c (List.mem_cons_of_mem _ hc))) (hself.symm ▸ taken)
      rwa [hself] at hform
    · refine List.forall_mem_cons.2 ⟨.inr (.inl rfl), fun x hx => ?_⟩
      exact (hjoined.chars x hx).imp_right .inr
  | words mixed free start =>
    have hjoined := hwords mixed
    generalize lowerCamelize s = j at hjoined free start
    obtain ⟨c, hc, hmixed⟩ := hjoined.mixed
    have hself := hjoined.lowerCamelize_eq
    constructor
    · have hform := VarForm.words (s := j) (fun hall => hmixed (hall c hc))
        (hself.symm ▸ free) (hself.symm ▸ start)
      rwa [hself] at hform
    · exact fun x hx => (hjoined.chars x hx).imp_right .inr

theorem kept_of_own (h : c.isAlphanum = true ∨ c = '_' ∨ c = '$') :
    (if isWordChar c || c == '$' then c else '_') = c := by
  rcases h with h | rfl | rfl
  · rw [isWordChar_of_isAlphanum h, Bool.true_or, if_pos rfl]
  · rfl
  · rfl

theorem cleanName_eq_self (h : ∀ c ∈ s, c.isAlphanum = true ∨ c = '_' ∨ c = '$') :
    cleanName s = s :=
  (List.map_congr_left fun c hc => kept_of_own (h c hc)).trans (List.map_id s)

theorem own_of_mem_cleanName (hascii : ∀ c ∈ name, c.toNat < 128) :
    ∀ c ∈ cleanName name, c.isAlphanum = true ∨ c = '_' ∨ c = '$' := by
  intro x hx
  refine own_of_not_foreign ?_ (foreignRanges_spare_cleanName name x hx)
  obtain ⟨c, hc, rfl⟩ := List.mem_map.1 hx
  split
  · exact hascii c hc
  · decide

theorem cleanName_eq_lone_iff (hascii : ∀ c ∈ name, c.toNat < 128) :
    cleanName name = [.char '_'] ↔ ∃ c, name = [c] ∧ ¬(c.isAlphanum = true ∨ c = .char '$') := by
  rw [cleanName, List.map_eq_singleton_iff]
  refine exists_congr fun c => and_congr_right ?_
  rintro rfl
  have hall : ∀ c : Rune, c.toNat < 128 → ((if isWordChar c || c == '$' then c else '_') = '_' ↔
      ¬(c.isAlphanum = true ∨ c = '$')) := forall_ascii (by decide +kernel)
  exact hall c (hascii c List.mem_cons_self)

/-- For a name of ASCII the variable of its variable is the variable itself, unless the name is a
single character that no variable holds or an underscore. -/
theorem varName_twice_iff (hascii : ∀ c ∈ name, c.toNat < 128) :
    varName (varName name) = varName name ↔
      name = [] ∨ 2 ≤ name.length ∨ ∃ c, name = [c] ∧ (c.isAlphanum = true ∨ c = .char '$') := by
  have hlength : (name = [] ∨ 2 ≤ name.length ∨
      ∃ c, name = [c] ∧ (c.isAlphanum = true ∨ c = .char '$')) ↔ cleanName name ≠ [.char '_'] := by
    simp only [Ne, cleanName_eq_lone_iff hascii, not_exists, not_and, not_not]
    match name with
    | [] => simp
    | [c] => simp
    | c :: d :: rest => simp
  rw [hlength]
  by_cases hlone : cleanName name = [.char '_']
  · have hlast : varName name = [.char '_', .char 'u'] := VarForm.varName_eq (hlone ▸ .lone)
    rw [hlast]
    exact iff_of_false (by decide +kernel) fun h => h hlone
  · refine iff_of_true ?_ hlone
    obtain ⟨hagain, hown⟩ := (varForm name).again hlone (own_of_mem_cleanName hascii)
      (foreignRanges_spare_cleanName name)
    exact VarForm.varName_eq ((cleanName_eq_self hown).symm ▸ hagain)

theorem varName_twice_iff_new :
    (∀ c ∈ "new-".runes, c.toNat < 128) ∧ varName "new-".runes = "_new".runes ∧
      varName (varName "new-".runes) = varName "new-".runes := by
  have hascii : ∀ c ∈ "new-".runes, c.toNat < 128 := by
    have hall : ("new-".runes.all fun c => decide (c.toNat < 128)) = true := by decide
    exact fun c hc => of_decide_eq_true (List.all_eq_true.1 hall c hc)
  exact ⟨hascii, by decide +kernel, (varName_twice_iff hascii).2 (.inr (.inl (by decide)))⟩

end ApiPrep.Naming
