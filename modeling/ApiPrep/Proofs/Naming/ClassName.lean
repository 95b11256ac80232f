import ApiPrep.Proofs.Naming.Conventional

namespace ApiPrep.Naming

open Text

variable {c x : Rune} {lead name s : List Rune}

/-- What may be the name of a class: letters and digits of ASCII, without a digit at the start. -/
structure IsTypeName (name : List Rune) : Prop where
  chars : ∀ c ∈ name, c.isAlphanum = true
  start : startsWithDigit name = false

def becomesLetter (c : Rune) : Bool := (lowerChar c).any Rune.isAlphanum

/-- Whether the first character that becomes a letter or a digit is a digit, and some sign that
breaks words stands before it. -/
def HidesDigit (name : List Rune) : Prop :=
  (∃ d ∈ name.find? becomesLetter, d.isDigit = true) ∧
    ∃ c ∈ name.takeWhile fun c => !becomesLetter c, breaksWord c = true

/-! ### Separators in lower case -/

theorem lowerTable_apart_separators : ∀ r ∈ lowerTable, ∀ q ∈ separatorRanges,
    r.last < q.1 ∨ q.2 < r.first := by decide +kernel

theorem lowerChar_of_isSeparator (h : isSeparator c = true) : lowerChar c = [c] := by
  rw [isSeparator_eq_has] at h
  have hdotted : c ≠ '\u0130' := by
    rintro rfl
    exact absurd h (by decide)
  obtain ⟨q, hq, hlo, hhi⟩ := Ranges.has_iff.1 h
  rw [lowerChar_eq_shiftBy hdotted]
  rcases caseTables_land.1.toNat_shiftBy c with he | ⟨r, hr, hb, -⟩
  · rw [he]
  · have hapart := lowerTable_apart_separators r hr q hq
    omega

theorem becomesLetter_of_isAlphanum (h : c.isAlphanum = true) : becomesLetter c = true := by
  have hascii : ∀ c : Rune, c.toNat < 128 → c.isAlphanum = true → becomesLetter c = true :=
    forall_ascii (by decide +kernel)
  exact hascii c (lt_of_isAlphanum h) h

theorem isDigit_of_mem_lowerChar (hx : x ∈ lowerChar c) (h : x.isDigit = true) :
    c.isDigit = true := by
  have hdigits : ∀ x : Rune, x.toNat < 128 → x.isDigit = true →
      Ranges.has [(48, 57)] x.toNat = true := forall_ascii (by decide +kernel)
  have havoid : Avoids lowerTable [(48, 57)] := avoids_of_apart (by decide +kernel)
  have hin := hdigits x (lt_of_isAlphanum (alphanum_of_small (.inr h))) h
  by_cases hdotted : c = '\u0130'
  · have hparts : Ranges.Spare [(48, 57)] (lowerChar ('\u0130')) := by decide
    rw [hparts x (hdotted ▸ hx)] at hin
    cases hin
  · rw [lowerChar_eq_shiftBy hdotted, List.mem_singleton] at hx
    rw [hx] at hin
    rwa [hx, havoid.shiftBy_eq_self caseTables_land.1 hin] at h

/-! ### Texts that are cleaned after they have been put into lower case -/

theorem dashed_separator (h : isSeparator c = true) (b : Bool) (s : List Rune) :
    ∃ x b', dashed b (c :: s) = x :: dashed b' s ∧ isSeparator x = true ∧
      breaksWord x = breaksWord c := by
  have hhere (d : Rune) (hd : isSeparator d = true) (rest : List Rune) :
      lowerHere b d rest = [d] := (lowerHere_eq_self_iff b rest).2 (lowerChar_of_isSeparator hd)
  obtain ⟨b', hb⟩ := lowerAfter_cons b (if c = '-' then '_' else c)
    (s.map fun c => if c = .char '-' then '_' else c)
  rw [dashed, List.map_cons, hb]
  by_cases hdash : c = '-'
  · refine ⟨'-', b', ?_, by decide, by rw [hdash]⟩
    rw [if_pos hdash, hhere ('_') (by decide)]
    rfl
  · rw [if_neg hdash, hhere c h]
    by_cases hbar : c = '_' ∨ c = ' '
    · refine ⟨'-', b', congrArg (· :: _) (if_pos hbar), by decide, ?_⟩
      rcases hbar with rfl | rfl <;> decide
    · exact ⟨c, b', congrArg (· :: _) (if_neg hbar), h, rfl⟩

theorem sanitize_dashed_cons (hc : becomesLetter c = false) (before : Rune) (b : Bool)
    (s : List Rune) :
    ∃ b', sanitize (dashed b (marked before (c :: s))) =
      (if breaksWord c then [.char '_'] else []) ++ sanitize (dashed b' (marked c s)) := by
  have hnone : c.isAlphanum = false := Bool.eq_false_iff.2 fun ha =>
    Bool.eq_false_iff.1 hc (becomesLetter_of_isAlphanum ha)
  have hupper : c.isUpper = false := Bool.eq_false_iff.2 fun hu =>
    Bool.eq_false_iff.1 hnone (alphanum_of_upper hu)
  have hmark : marked before (c :: s) = c :: marked c s := by
    rw [marked, startsWord, hupper, Bool.false_and, if_neg Bool.false_ne_true]
  rw [hmark]
  cases hsep : isSeparator c with
  | true =>
    obtain ⟨x, b', hd, hx, hbreak⟩ := dashed_separator hsep b (marked c s)
    have hxa : x.isAlphanum = false := Bool.eq_false_iff.2 fun ha =>
      absurd hx (Bool.eq_false_iff.1 (isSeparator_of_isAlphanum ha))
    refine ⟨b', ?_⟩
    rw [hd, sanitize_cons, hxa, if_neg Bool.false_ne_true, hbreak]
    split <;> rfl
  | false =>
    obtain ⟨rest, b', hd⟩ := dashed_plain b (marked c s) hsep
    refine ⟨b', ?_⟩
    have hforeign : ∀ x ∈ lowerHere b c rest, ¬x.isAlphanum = true := by
      intro x hx
      rcases lowerHere_cases b c rest with he | ⟨-, he⟩
      · exact List.any_eq_false.1 hc x (he ▸ hx)
      · rw [he] at hx
        rw [List.mem_singleton.1 hx]
        decide
    rw [hd, sanitize_append, sanitize_plain (lowerHere_plain b rest hsep),
      List.filter_eq_nil_iff.2 hforeign, breaksWord_of_plain hsep, if_neg Bool.false_ne_true]

theorem sanitize_dashed_append (h : ∀ c ∈ lead, becomesLetter c = false) (before : Rune) (b : Bool)
    (s : List Rune) :
    ∃ before' b', sanitize (dashed b (marked before (lead ++ s))) =
      (lead.filter breaksWord).map (fun _ => .char '_') ++
        sanitize (dashed b' (marked before' s)) := by
  induction lead generalizing before b with
  | nil => exact ⟨before, b, rfl⟩
  | cons c lead ih =>
    obtain ⟨hc, hlead⟩ := List.forall_mem_cons.1 h
    obtain ⟨b', hcons⟩ := sanitize_dashed_cons hc before b (lead ++ s)
    obtain ⟨before', b'', hrest⟩ := ih hlead c b'
    refine ⟨before', b'', ?_⟩
    rw [List.cons_append, hcons, hrest, List.filter_cons]
    split <;> rfl

theorem becomesLetter_cases (hc : becomesLetter c = true) :
    isSeparator c = false ∧ ∃ x rest, (lowerChar c).filter Rune.isAlphanum = x :: rest ∧
      x.isAlphanum = true ∧ x.isDigit = c.isDigit := by
  obtain ⟨letter, hmem, hletter⟩ := List.any_eq_true.1 hc
  constructor
  · rw [Bool.eq_false_iff]
    intro hsep
    rw [lowerChar_of_isSeparator hsep, List.mem_singleton] at hmem
    exact absurd hsep (Bool.eq_false_iff.1 (isSeparator_of_isAlphanum (hmem ▸ hletter)))
  · cases hf : (lowerChar c).filter Rune.isAlphanum with
    | nil => exact absurd hletter (List.filter_eq_nil_iff.1 hf letter hmem)
    | cons x rest =>
      obtain ⟨hx, ha⟩ := List.mem_filter.1 (hf ▸ List.mem_cons_self : x ∈ List.filter _ _)
      refine ⟨x, rest, rfl, ha, Bool.eq_iff_iff.2 ⟨isDigit_of_mem_lowerChar hx, fun hdigit => ?_⟩⟩
      rw [(small_char (.inr hdigit)).2.1, List.mem_singleton] at hx
      exact hx ▸ hdigit

/-- The first character that becomes a letter or a digit becomes a digit only if it is one, and
then nothing is set before it. -/
theorem sanitize_dashed_letter (hc : becomesLetter c = true) (before : Rune) (b : Bool)
    (s : List Rune) :
    ∃ x rest, x.isAlphanum = true ∧ x.isDigit = c.isDigit ∧
      (sanitize (dashed b (marked before (c :: s))) = x :: rest ∨
        c.isDigit = false ∧
          sanitize (dashed b (marked before (c :: s))) = .char '_' :: x :: rest) := by
  obtain ⟨hsep, x, more, hfilter, ha, hdigit⟩ := becomesLetter_cases hc
  have hhere (b : Bool) : ∃ rest, sanitize (dashed b (c :: marked c s)) = x :: rest := by
    obtain ⟨rest, b', hd⟩ := dashed_plain b (marked c s) hsep
    refine ⟨more ++ sanitize (dashed b' (marked c s)), ?_⟩
    rw [hd, sanitize_append, sanitize_plain (lowerHere_plain b rest hsep)]
    rcases lowerHere_cases b c rest with he | ⟨rfl, -⟩
    · rw [he, hfilter, List.cons_append]
    · exact absurd hc (by decide +kernel)
  rw [marked]
  -- An underscore is set only before a capital, and that is no digit.
  by_cases hword : startsWord before c s = true
  · obtain ⟨rest, hrest⟩ := hhere false
    have hupper : c.isUpper = true := (Bool.and_eq_true_iff.1 hword).1
    have hnot : c.isDigit = false := Bool.eq_false_iff.2 fun hd =>
      absurd hupper (Bool.eq_false_iff.1 (small_char (.inr hd)).1)
    refine ⟨x, rest, ha, hdigit, .inr ⟨hnot, ?_⟩⟩
    rw [if_pos hword, dashed_mark, sanitize_cons, if_pos (by decide), hrest]
  · obtain ⟨rest, hrest⟩ := hhere b
    rw [if_neg hword]
    exact ⟨x, rest, ha, hdigit, .inl hrest⟩

theorem dashize_eq_dashed (s : List Rune) : dashize s = dashed false (marked (' ') s) := by
  cases s with
  | nil => rfl
  | cons c s =>
    have hword : startsWord (' ') c s = false := by
      have hsmall : (Rune.isLower ' ' || isDigit (' ')) = false := by decide
      have hupper : Rune.isUpper ' ' = false := by decide
      rw [startsWord, hsmall, hupper, Bool.false_and, Bool.or_self, Bool.and_false]
    rw [dashize_cons, marked, hword, if_neg Bool.false_ne_true]

/-! ### Names of classes -/

theorem joined_bars (s t : List Rune) :
    joined true (s.map (fun _ => .char '_') ++ t) = joined true t :=
  joined_separators (List.forall_mem_map.2 fun _ _ => by decide) t

theorem startsWithDigit_joined (h : c.isAlphanum = true) (s : List Rune) :
    startsWithDigit (joined true (c :: s)) = c.isDigit := by
  have hascii : ∀ c : Rune, c.toNat < 128 → c.isAlphanum = true →
      isDigit c.toUpper = c.isDigit := forall_ascii (by decide +kernel)
  have hupper : upperChar c = [c.toUpper] := if_pos (lt_of_isAlphanum h)
  rw [joined, isSeparator_of_isAlphanum h, if_neg Bool.false_ne_true, if_pos rfl, hupper]
  exact hascii c (lt_of_isAlphanum h) h

theorem isDigit_of_isDigit (h : c.isDigit = true) : isDigit c = true := by
  rw [Text.isDigit, if_pos (lt_of_isAlphanum (alphanum_of_small (.inr h))), h]

theorem camelize_model (s : List Rune) :
    camelize ("model_".runes ++ s) = "Model".runes ++ joined true s := by
  rw [camelize_eq_joined]
  rfl

theorem modelName_eq (name : List Rune) :
    modelName name =
      (if isReserved (sanitize (dashize name)) = true ∨
          startsWithDigit (sanitize (dashize name)) = true then "Model".runes else []) ++
        joined true (sanitize (dashize name)) := by
  rw [modelName, camelize_model, camelize_eq_joined]
  by_cases h : isReserved (sanitize (dashize name)) = true ∨
      startsWithDigit (sanitize (dashize name)) = true
  · rw [if_pos h, if_pos (Bool.or_eq_true_iff.2 h)]
  · rw [if_neg h, if_neg (mt Bool.or_eq_true_iff.1 h), List.nil_append]

theorem not_renamed_of_underscore (s : List Rune) :
    ¬(isReserved ('_' :: s) = true ∨ startsWithDigit ('_' :: s) = true) := by
  have hstart : startsWithDigit ('_' :: s) = false := by
    change isDigit ('_') = false
    decide
  rintro (hreserved | hdigit)
  · have hletter := isAlpha_of_isReserved hreserved ('_') List.mem_cons_self
    exact absurd hletter (by decide)
  · rw [hstart] at hdigit
    cases hdigit

theorem isAlphanum_of_mem_modelName (h : x ∈ modelName name) : x.isAlphanum = true := by
  rw [modelName_eq] at h
  rcases List.mem_append.1 h with h | h
  · have hall : "Model".runes.all Rune.isAlphanum = true := by decide
    split at h
    · exact List.all_eq_true.1 hall x h
    · cases h
  · exact isAlphanum_of_mem_joined h

theorem isTypeName_tagName (tag : List Rune) : IsTypeName (tagName tag) := by
  have hjoined : ∀ x ∈ camelize (sanitize (dashize tag)), x.isAlphanum = true := by
    intro x hx
    rw [camelize_eq_joined] at hx
    exact isAlphanum_of_mem_joined hx
  rw [tagName]
  split
  · have hall : "Class".runes.all Rune.isAlphanum = true := by decide
    refine ⟨fun x hx => ?_, rfl⟩
    rcases List.mem_append.1 hx with hx | hx
    · exact List.all_eq_true.1 hall x hx
    · exact hjoined x hx
  · next hstart => exact ⟨hjoined, Bool.eq_false_iff.2 hstart⟩

theorem hidesDigit_append_iff (hc : becomesLetter c = true)
    (hlead : ∀ x ∈ lead, becomesLetter x = false) :
    HidesDigit (lead ++ c :: s) ↔ c.isDigit = true ∧ lead.filter breaksWord ≠ [] := by
  have hlead' : ∀ x ∈ lead, (!becomesLetter x) = true := fun x hx => by rw [hlead x hx]; rfl
  have hfind : (lead ++ c :: s).find? becomesLetter = some c :=
    List.find?_eq_some_iff_append.2 ⟨hc, lead, s, rfl, hlead'⟩
  have htake : ((lead ++ c :: s).takeWhile fun x => !becomesLetter x) = lead := by
    rw [List.takeWhile_append_of_pos hlead', List.takeWhile_cons_of_neg (by rw [hc]; decide),
      List.append_nil]
  rw [HidesDigit, hfind, htake]
  refine and_congr ?_ ?_
  · simp only [Option.mem_some_iff, exists_eq_left']
  · simp only [ne_eq, List.filter_eq_nil_iff, not_forall, not_not, exists_prop]

theorem startsWithDigit_modelName_of_none (h : ∀ c ∈ name, becomesLetter c = false) :
    startsWithDigit (modelName name) = false := by
  obtain ⟨before, b, hplain⟩ := sanitize_dashed_append h (' ') false []
  rw [List.append_nil, ← dashize_eq_dashed] at hplain
  have hjoined : joined true (sanitize (dashize name)) = [] := by
    rw [hplain, joined_bars]
    rfl
  rw [modelName_eq, hjoined]
  split <;> rfl

/-- What stands before the first letter or digit is gone from the name of the model, but it has
kept a digit behind it from being seen. -/
theorem startsWithDigit_modelName_append (hc : becomesLetter c = true)
    (hlead : ∀ x ∈ lead, becomesLetter x = false) :
    startsWithDigit (modelName (lead ++ c :: s)) = true ↔
      c.isDigit = true ∧ lead.filter breaksWord ≠ [] := by
  obtain ⟨before, b, hplain⟩ := sanitize_dashed_append hlead (' ') false (c :: s)
  obtain ⟨x, rest, ha, hdigit, hletter⟩ := sanitize_dashed_letter hc before b s
  rw [modelName_eq]
  rw [← dashize_eq_dashed] at hplain
  generalize sanitize (dashize (lead ++ c :: s)) = plain at hplain ⊢
  have hjoined : startsWithDigit (joined true plain) = c.isDigit := by
    rw [hplain, joined_bars, ← hdigit, ← startsWithDigit_joined ha rest]
    rcases hletter with he | ⟨-, he⟩ <;> rw [he]
    rfl
  have hbehind (h : lead.filter breaksWord ≠ []) :
      ¬(isReserved plain = true ∨ startsWithDigit plain = true) := by
    obtain ⟨y, bars, hbars⟩ := List.exists_cons_of_ne_nil h
    rw [hplain, hbars]
    exact not_renamed_of_underscore _
  have hfront (hd : c.isDigit = true) (h : lead.filter breaksWord = []) :
      startsWithDigit plain = true := by
    rw [hplain, h]
    rcases hletter with he | ⟨hnot, -⟩
    · rw [he]
      exact isDigit_of_isDigit (hdigit.trans hd)
    · rw [hd] at hnot
      cases hnot
  by_cases hmodel : isReserved plain = true ∨ startsWithDigit plain = true
  · rw [if_pos hmodel]
    exact iff_of_false Bool.false_ne_true fun h => hbehind h.2 hmodel
  · rw [if_neg hmodel, List.nil_append, hjoined, iff_self_and]
    intro hd hnil
    exact hmodel (.inr (hfront hd hnil))

theorem startsWithDigit_modelName_iff (name : List Rune) :
    startsWithDigit (modelName name) = true ↔ HidesDigit name := by
  cases hfind : name.find? becomesLetter with
  | none =>
    have hnone : ∀ c ∈ name, becomesLetter c = false := by
      intro c hc
      exact Bool.eq_false_iff.2 (List.find?_eq_none.1 hfind c hc)
    rw [startsWithDigit_modelName_of_none hnone]
    refine iff_of_false Bool.false_ne_true ?_
    rintro ⟨⟨d, hd, -⟩, -⟩
    rw [hfind] at hd
    cases hd
  | some c =>
    obtain ⟨hc, lead, s, rfl, hlead⟩ := List.find?_eq_some_iff_append.1 hfind
    have hlead : ∀ x ∈ lead, becomesLetter x = false := by
      intro x hx
      rw [← Bool.not_eq_true', hlead x hx]
    rw [startsWithDigit_modelName_append hc hlead, hidesDigit_append_iff hc hlead]

/-- Whatever the name, a class may be called by the stem for a tag. What a model is called consists
of letters and digits of ASCII, and it starts with a digit exactly if the name hides one. -/
theorem class_names_iff (name : List Rune) :
    IsTypeName (tagName name) ∧ (∀ c ∈ modelName name, c.isAlphanum = true) ∧
      (IsTypeName (modelName name) ↔ ¬HidesDigit name) := by
  have hchars : ∀ c ∈ modelName name, c.isAlphanum = true := fun _ => isAlphanum_of_mem_modelName
  refine ⟨isTypeName_tagName name, hchars, ?_⟩
  rw [← startsWithDigit_modelName_iff, Bool.not_eq_true]
  exact ⟨IsTypeName.start, fun hstart => ⟨hchars, hstart⟩⟩

/-- An underscore that hides a digit is no part of the class. -/
theorem modelName_exposes_digit :
    modelName "_2fa".runes = "2fa".runes ∧ ¬IsTypeName (modelName "_2fa".runes) ∧
      tagName "_2fa".runes = "Class2fa".runes := by
  have hname : modelName "_2fa".runes = "2fa".runes := by decide +kernel
  refine ⟨hname, fun h => ?_, by decide +kernel⟩
  have hstart := h.start
  rw [hname] at hstart
  exact absurd hstart (by decide)

end ApiPrep.Naming
