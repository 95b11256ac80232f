import ApiPrep.Naming.IdRule
import ApiPrep.Naming.Identifier
import ApiPrep.Proofs.Naming.Words
import ApiPrep.Proofs.Outcome
import ApiPrep.Proofs.Text.Recased

namespace ApiPrep.Naming

open Text

variable {c x : Rune} {s word id : List Rune}

theorem lt_of_isAlphanum (h : c.isAlphanum = true) : c.toNat < 128 := by
  rw [Rune.isAlphanum_iff, Rune.isUpper_iff, Rune.isLower_iff, Rune.isDigit_iff] at h
  omega

theorem isSeparator_of_isAlphanum (h : c.isAlphanum = true) : isSeparator c = false := by
  have hascii : ∀ c : Rune, c.toNat < 128 → c.isAlphanum = true → isSeparator c = false :=
    forall_ascii (by decide +kernel)
  exact hascii c (lt_of_isAlphanum h) h

/-! ### Reserved words -/

/-- The small letters that no letter beyond ASCII becomes: all but `i` and `k`. -/
def ownLetters : Ranges := [(97, 104), (106, 106), (108, 122)]

theorem lt_of_ownLetters {n : Nat} (h : ownLetters.has n = true) : n < 128 := by
  obtain ⟨r, hr, _, hhi⟩ := Ranges.has_iff.1 h
  have hsmall : ∀ r ∈ ownLetters, r.2 < 128 := by decide
  exact Nat.lt_of_le_of_lt hhi (hsmall r hr)

theorem isAlphanum_of_ownLetters (h : ownLetters.has c.toNat = true) : c.isAlphanum = true := by
  have hascii : ∀ c : Rune, c.toNat < 128 → ownLetters.has c.toNat = true →
      c.isAlphanum = true := forall_ascii (by decide +kernel)
  exact hascii c (lt_of_ownLetters h) h

theorem lowerRuns_avoid_ownLetters : Avoids lowerRuns ownLetters :=
  avoids_of_apart (by decide +kernel)

theorem isAlphanum_of_mem_lowerChar (hx : x ∈ lowerChar c) (h : ownLetters.has x.toNat = true) :
    c.isAlphanum = true := by
  have hascii : ∀ c : Rune, c.toNat < 128 → ownLetters.has c.toLower.toNat = true →
      c.isAlphanum = true := forall_ascii (by decide +kernel)
  rw [lowerChar] at hx
  split at hx
  · next hc => exact hascii c hc (List.mem_singleton.1 hx ▸ h)
  · next hc =>
    split at hx
    · rcases List.mem_cons.1 hx with rfl | hx
      · exact absurd h (by decide)
      · rw [List.mem_singleton.1 hx] at h
        exact absurd h (by decide)
    · -- A letter that has not moved is none of ASCII.
      rw [List.mem_singleton.1 hx] at h
      rw [lowerRuns_avoid_ownLetters.shiftBy_eq_self caseRuns_land.1 h] at h
      exact absurd (lt_of_ownLetters h) hc

theorem reserved_spelling : ∀ w ∈ reservedWords,
    w.toList.any (fun x => ownLetters.has x.toNat) = true ∧ w.toList.all Rune.isAlpha = true ∧
      [Rune.char 'c', 'a', 'l', 'l'].isPrefixOf w.toList = false := by
  decide +kernel

theorem exists_ownLetters_of_mem {w : Text} (h : w ∈ reservedWords) :
    ∃ x ∈ w.toList, ownLetters.has x.toNat = true := List.any_eq_true.1 (reserved_spelling w h).1

theorem exists_isAlphanum_of_isReserved (h : isReserved word = true) :
    ∃ c ∈ word, c.isAlphanum = true := by
  rw [isReserved, Bool.or_eq_true, List.contains_iff_mem, List.contains_iff_mem] at h
  rcases h with h | h
  · obtain ⟨x, hx, hown⟩ := exists_ownLetters_of_mem h
    rw [Text.toList_ofList] at hx
    exact ⟨x, hx, isAlphanum_of_ownLetters hown⟩
  · obtain ⟨x, hx, hown⟩ := exists_ownLetters_of_mem h
    rw [Text.toList_ofList] at hx
    obtain ⟨c, hc, b, rest, hx⟩ := mem_lowerAfter hx
    refine ⟨c, hc, ?_⟩
    rcases lowerHere_cases b c rest with he | ⟨_, he⟩
    · exact isAlphanum_of_mem_lowerChar (he ▸ hx) hown
    · rw [he] at hx
      rw [List.mem_singleton.1 hx] at hown
      exact absurd hown (by decide)

/-! ### Ids -/

theorem separators_of_sanitize_iff :
    (∀ x ∈ sanitize s, isSeparator x = true) ↔ ∀ c ∈ s, c.isAlphanum = false := by
  simp only [sanitize, List.mem_filter, List.mem_map, and_imp, forall_exists_index,
    forall_apply_eq_imp_iff₂]
  refine forall₂_congr fun c _ => ?_
  cases h : c.isAlphanum with
  | true =>
    have hsep := isSeparator_of_isAlphanum h
    have hkept : ¬ (c = '-' ∨ c = '.' ∨ isBlank c = true) := by
      simp only [isSeparator, Bool.or_eq_false_iff, beq_eq_false_iff_ne] at hsep
      simp only [hsep, or_self, Bool.false_eq_true, not_false_eq_true]
    rw [if_neg hkept, isNameChar, h, hsep, Bool.true_or]
    decide
  | false =>
    refine iff_of_true (fun hname => ?_) rfl
    split at hname
    · next hc => rw [if_pos hc]; decide
    · next hc =>
      rw [isNameChar, h, Bool.false_or, beq_iff_eq] at hname
      rw [if_neg hc, hname]
      decide

theorem blank_operationId_iff :
    blank (operationId id).1 = true ↔ ∀ c ∈ id, c.isAlphanum = false := by
  rw [operationId]
  split
  · next h =>
    obtain ⟨c, hc, ha⟩ := exists_isAlphanum_of_isReserved h
    rw [blank_lowerCamelize_iff]
    refine iff_of_false (fun hsep => ?_) fun hnone => ?_
    · have hlead := hsep ('c') (List.mem_append_left id (by decide))
      exact absurd hlead (by decide)
    · rw [hnone c hc] at ha
      cases ha
  · rw [blank_lowerCamelize_iff, separators_of_sanitize_iff]

/-! ### Names that are never empty -/

theorem lower_ne_nil {s : List Rune} (h : s ≠ []) : Text.lower s ≠ [] := by
  cases s with
  | nil => exact absurd rfl h
  | cons c rest =>
    obtain ⟨b, hb⟩ := Text.lowerAfter_cons false c rest
    rw [Text.lower, hb]
    exact List.append_ne_nil_of_left_ne_nil (Text.lowerHere_ne_nil false c rest) _

theorem fallbackId_ne_nil {method : List Rune} (h : method ≠ []) (path : List Rune) :
    fallbackId path method ≠ [] := by
  simp only [fallbackId]
  split
  · exact lower_ne_nil h
  · next hname => simpa only [List.isEmpty_iff] using hname

theorem IdRule.usual_eq_ok {name : Text} (h : name ≠ "") :
    (IdRule.usual name).run.value = .ok (Text.ofList (operationId name.toList).1) := by
  rw [IdRule.usual, if_neg h]
  cases operationId name.toList with
  | mk letters renamed => cases renamed <;> rfl

theorem IdRule.usual_eq_error_iff {name : Text} {f : Failure} :
    (IdRule.usual name).run.value = .error f ↔ name = "" ∧ f = .broken .emptyOperationId := by
  by_cases hname : name = ""
  · rw [IdRule.usual, if_pos hname]
    constructor
    · intro h
      exact ⟨hname, (Except.error.inj h).symm⟩
    · rintro ⟨-, rfl⟩
      rfl
  · rw [IdRule.usual_eq_ok hname]
    exact iff_of_false nofun fun h => hname h.1

end ApiPrep.Naming
