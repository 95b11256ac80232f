import ApiPrep.Proofs.Naming.ClassName

namespace ApiPrep.Naming

open Text

variable {c : Rune} {s t : List Rune}

/-! ### Words with dashes between -/

/-- A text without underscores and spaces in which no character has another lower-case form. -/
structure IsDashed (s : List Rune) : Prop where
  small : ∀ c ∈ s, lowerChar c = [c]
  noBar : .char '_' ∉ s
  noSpace : .char ' ' ∉ s

theorem isUpper_of_lowerChar (h : lowerChar c = [c]) : c.isUpper = false := by
  rw [Bool.eq_false_iff]
  intro hc
  obtain ⟨hlower, -, hsmall, -⟩ := upper_char hc
  have hself : c.toLower = c := List.singleton_inj.1 (hlower.symm.trans h)
  rw [hself] at hsmall
  rw [(small_char (.inl hsmall)).1] at hc
  cases hc

theorem marked_eq_self (h : ∀ c ∈ s, c.isUpper = false) (before : Rune) : marked before s = s := by
  induction s generalizing before with
  | nil => rfl
  | cons c s ih =>
    obtain ⟨hc, hs⟩ := List.forall_mem_cons.1 h
    rw [marked, startsWord, hc, Bool.false_and, if_neg Bool.false_ne_true, ih hs]

theorem isDashed_dashize (s : List Rune) : IsDashed (dashize s) := by
  have hsigns : ∀ x ∈ dashize s, lowerChar x = [x] ∧ x ≠ .char '_' ∧ x ≠ .char ' ' := by
    refine List.forall_mem_map.2 fun y hy => ?_
    split
    · exact ⟨rfl, by decide, by decide⟩
    · next hplain =>
      rw [not_or] at hplain
      exact ⟨lowerChar_of_mem_lower hy, hplain⟩
  exact ⟨fun x hx => (hsigns x hx).1, fun hbar => (hsigns _ hbar).2.1 rfl,
    fun hspace => (hsigns _ hspace).2.2 rfl⟩

/-- What has been put into small letters with dashes between stays as it is: no word starts in it,
its letters are in lower case wherever they stand, and the dashes come back. -/
theorem IsDashed.dashize_eq (h : IsDashed s) : dashize s = s := by
  have hcapital : ∀ c ∈ s, c.isUpper = false := fun c hc => isUpper_of_lowerChar (h.small c hc)
  have hsmall :
      ∀ x ∈ s.map (fun c => if c = .char '-' then .char '_' else c), lowerChar x = [x] := by
    refine List.forall_mem_map.2 fun c hc => ?_
    split
    · rfl
    · exact h.small c hc
  rw [dashize_eq_dashed, marked_eq_self hcapital, dashed, lowerAfter_eq_self hsmall, List.map_map]
  refine (List.map_congr_left fun c hc => ?_).trans (List.map_id s)
  rw [Function.comp_apply]
  by_cases hdash : c = '-'
  · rw [if_pos hdash, if_pos (.inl rfl), hdash, id]
  · rw [if_neg hdash, if_neg, id]
    rintro (rfl | rfl)
    · exact h.noBar hc
    · exact h.noSpace hc

theorem dashize_eq_self_iff : dashize s = s ↔ IsDashed s :=
  ⟨fun h => h ▸ isDashed_dashize s, IsDashed.dashize_eq⟩

/-- Putting words into small letters with dashes between once is enough: there are no capitals of
ASCII, underscores and spaces any more, and exactly the texts in this form stay as they are. -/
theorem dashize_normalizes (s : List Rune) :
    dashize (dashize s) = dashize s ∧
      (∀ c ∈ dashize s, c.isUpper = false ∧ c ≠ '_' ∧ c ≠ ' ') ∧
      (dashize s = s ↔ IsDashed s) := by
  have hform := isDashed_dashize s
  refine ⟨hform.dashize_eq, fun c hc => ⟨isUpper_of_lowerChar (hform.small c hc), ?_, ?_⟩,
    dashize_eq_self_iff⟩
  · rintro rfl
    exact hform.noBar hc
  · rintro rfl
    exact hform.noSpace hc

-- A dotted capital becomes two characters, and a final sigma is still final with dashes around it.
example : dashize ['\u0130', 'D', ' ', '\u039f', '\u03a3', '_', 'x'] =
    ['i', '\u0307', 'd', '-', '\u03bf', '\u03c2', '-', 'x'] := by decide +kernel

/-! ### Words in one -/

/-- A text without separators whose first character is its own upper-case form. -/
structure IsCamelized (s : List Rune) : Prop where
  plain : ∀ c ∈ s, isSeparator c = false
  start : ∀ c ∈ s.head?, upperChar c = [c]

theorem upperChar_head_joined (h : c ∈ (joined true s).head?) : upperChar c = [c] := by
  induction s with
  | nil => cases h
  | cons d s ih =>
    rw [joined] at h
    split at h
    · exact ih h
    · rw [if_pos rfl, List.head?_append_of_ne_nil _ (upperChar_ne_nil d)] at h
      exact upperChar_of_mem_upperChar (List.mem_of_mem_head? h)

theorem isCamelized_camelize (s : List Rune) : IsCamelized (camelize s) := by
  rw [camelize_eq_joined]
  exact ⟨joined_plain true s, fun c hc => upperChar_head_joined hc⟩

theorem IsCamelized.camelize_eq (h : IsCamelized s) : camelize s = s := by
  cases s with
  | nil => rfl
  | cons c s =>
    rw [camelize_plain (List.cons_ne_nil c s) h.plain, capitalized, h.start c rfl]
    rfl

theorem camelize_eq_self_iff : camelize s = s ↔ IsCamelized s :=
  ⟨fun h => h ▸ isCamelized_camelize s, IsCamelized.camelize_eq⟩

theorem camelize_append {seps : List Rune} (hne : seps ≠ [])
    (hseps : ∀ c ∈ seps, isSeparator c = true) (s t : List Rune) :
    camelize (s ++ seps ++ t) = camelize s ++ camelize t := by
  cases seps with
  | nil => exact absurd rfl hne
  | cons c seps =>
    obtain ⟨hc, hrest⟩ := List.forall_mem_cons.1 hseps
    simp only [camelize_eq_joined]
    rw [List.append_assoc, List.cons_append, joined_append_separator hc, joined_separators hrest]

/-- Words are joined one by one, whatever separates them, and once is enough: there are no
separators any more, and exactly the texts in this form stay as they are. A small first letter
makes no other difference. -/
theorem camelize_joins_words (s : List Rune) :
    (∀ seps t, seps ≠ [] → (∀ c ∈ seps, isSeparator c = true) →
      camelize (s ++ seps ++ t) = camelize s ++ camelize t) ∧
    camelize (camelize s) = camelize s ∧
    (∀ c ∈ camelize s, isSeparator c = false) ∧
    (camelize s = s ↔ IsCamelized s) ∧
    (camelize s = [] → lowerCamelize s = []) ∧
    ∀ c rest, camelize s = c :: rest → lowerCamelize s = lower [c] ++ rest := by
  have hform := isCamelized_camelize s
  refine ⟨fun seps t hne hseps => camelize_append hne hseps s t, hform.camelize_eq, hform.plain,
    camelize_eq_self_iff, fun hnil => ?_, fun c rest hcons => ?_⟩
  · rw [lowerCamelize, hnil, uncapitalized]
  · rw [lowerCamelize, hcons, uncapitalized]

theorem camelize_joins_words_sharp :
    ("-. ".runes ≠ [] ∧ ∀ c ∈ "-. ".runes, isSeparator c = true) ∧
      camelize ("grid".runes ++ "-. ".runes ++ "\u00dfx".runes) = "GridSSx".runes := by
  have hne : "-. ".runes ≠ [] := by decide
  have hseps : ∀ c ∈ "-. ".runes, isSeparator c = true := List.all_eq_true.1 (by decide)
  refine ⟨⟨hne, hseps⟩, ?_⟩
  rw [(camelize_joins_words "grid".runes).1 _ _ hne hseps]
  decide +kernel

/-! ### Names of methods -/

theorem isAlphanum_of_mem_lowerCamelize (hc : c ∈ lowerCamelize (sanitize s)) :
    c.isAlphanum = true := by
  cases hfirst : s.find? Rune.isAlphanum with
  | none =>
    have hnone : ∀ d ∈ s, d.isAlphanum = false := fun d hd =>
      Bool.eq_false_iff.2 (List.find?_eq_none.1 hfirst d hd)
    have hnil := (joined_eq_nil_iff true _).2 (separators_of_sanitize_iff.2 hnone)
    rw [lowerCamelize, camelize_eq_joined, hnil] at hc
    cases hc
  | some d =>
    obtain ⟨rest, hwords, hall⟩ := joinWords_wordsOf hfirst
    rw [lowerCamelize_sanitize, hwords] at hc
    exact hall c hc

theorem isReserved_call (s : List Rune) : isReserved ("call".runes ++ s) = false := by
  have hlower : ∃ b, lower ("call".runes ++ s) = "call".runes ++ lowerAfter b s :=
    ⟨_, rfl⟩
  obtain ⟨b, hlower⟩ := hlower
  rw [isReserved, hlower, Bool.or_eq_false_iff, List.contains_eq_mem, List.contains_eq_mem,
    decide_eq_false_iff_not, decide_eq_false_iff_not]
  exact ⟨call_not_reserved s, call_not_reserved _⟩

theorem IsJoined.operationId_eq (h : IsJoined s) (hs : ∀ c ∈ s, c.isAlphanum = true)
    (hfree : isReserved s = false) : (operationId s).1 = s := by
  rw [operationId_of_free hfree, sanitize_alphanum hs, h.lowerCamelize_eq]

theorem isJoined_operationId (hne : (operationId s).1 ≠ [])
    (hascii : ∀ c ∈ (operationId s).1, c.toNat < 128) :
    IsJoined (operationId s).1 ∧ ∀ c ∈ (operationId s).1, c.isAlphanum = true := by
  cases hreserved : isReserved s with
  | true =>
    rw [operationId_of_isReserved hreserved] at hascii ⊢
    have hcall : ∀ c ∈ "call".runes, c.isAlphanum = true := List.all_eq_true.1 (by decide)
    have hletters : ∀ c ∈ "call".runes ++ joined true s, c.isAlphanum = true := by
      refine List.forall_mem_append.2 ⟨hcall, fun c hc => ?_⟩
      have hword := isWordChar_of_mem_joined hreserved hc
      rw [isWordChar, if_pos (hascii c (List.mem_append_right _ hc)), Bool.or_eq_true,
        beq_iff_eq] at hword
      refine hword.resolve_right ?_
      rintro rfl
      exact absurd (joined_plain true s ('_') hc) (by decide)
    exact ⟨⟨fun c hc => .inl (hletters c hc), _, _, rfl, rfl⟩, hletters⟩
  | false =>
    rw [operationId_of_free hreserved] at hne ⊢
    have hsigns : ∀ c ∈ sanitize s, c.isAlphanum = true ∨ c = '_' ∨ c = '$' := by
      intro c hc
      rw [sanitize, List.mem_filter, isNameChar, Bool.or_eq_true, beq_iff_eq] at hc
      exact hc.2.imp_right .inl
    exact ⟨isJoined_lowerCamelize hsigns hne, fun c hc => isAlphanum_of_mem_lowerCamelize hc⟩

/-- A name of a method is its own iff it consists of ASCII and is not reserved. -/
theorem operationId_again_iff (hne : (operationId s).1 ≠ []) :
    (operationId (operationId s).1).1 = (operationId s).1 ↔
      (∀ c ∈ (operationId s).1, c.toNat < 128) ∧ isReserved (operationId s).1 = false := by
  constructor
  · intro h
    cases hreserved : isReserved (operationId s).1 with
    | true =>
      rw [operationId_of_isReserved hreserved] at h
      rw [← h, isReserved_call] at hreserved
      cases hreserved
    | false =>
      refine ⟨fun c hc => ?_, rfl⟩
      rw [operationId_of_free hreserved] at h
      rw [← h] at hc
      exact lt_of_isAlphanum (isAlphanum_of_mem_lowerCamelize hc)
  · rintro ⟨hascii, hfree⟩
    obtain ⟨hjoined, hletters⟩ := isJoined_operationId hne hascii
    exact hjoined.operationId_eq hletters hfree

end ApiPrep.Naming
