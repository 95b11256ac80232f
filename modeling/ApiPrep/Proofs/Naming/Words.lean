import ApiPrep.Naming.Case
import ApiPrep.Proofs.Text.Case

namespace ApiPrep.Naming

open Text

variable {c x : Rune} {s t : List Rune}

/-! ### Joined words -/

/-- A text without its separators. The letter after each of them is in upper case, and so is the
first if `start` is set. -/
def joined : (start : Bool) → List Rune → List Rune
  | _, [] => []
  | start, c :: rest =>
    if isSeparator c then joined true rest
    else (if start then upperChar c else [c]) ++ joined false rest

theorem flatMap_capitalized_wordsBy (p : Rune → Bool) (s : List Rune) :
    (wordsBy p s).flatMap capitalized = (splitBy p s).flatMap capitalized := by
  rw [wordsBy]
  induction splitBy p s with
  | nil => rfl
  | cons word words ih =>
    rw [List.filter_cons, List.flatMap_cons]
    split
    · rw [List.flatMap_cons, ih]
    · next h =>
      rw [decide_eq_true_eq, Decidable.not_not] at h
      rw [h]
      exact ih

theorem joined_eq_splitBy (s : List Rune) : ∃ word words, splitBy isSeparator s = word :: words ∧
    ∀ start, joined start s =
      (if start then capitalized word else word) ++ words.flatMap capitalized := by
  induction s with
  | nil => exact ⟨[], [], rfl, fun start => by cases start <;> rfl⟩
  | cons c rest ih =>
    obtain ⟨word, words, hsplit, hjoined⟩ := ih
    rw [splitBy, hsplit]
    cases hc : isSeparator c with
    | true =>
      refine ⟨[], word :: words, rfl, fun start => ?_⟩
      rw [joined, if_pos hc, hjoined]
      cases start <;> rfl
    | false =>
      refine ⟨c :: word, words, rfl, fun start => ?_⟩
      rw [joined, if_neg (Bool.eq_false_iff.1 hc), hjoined]
      cases start
      · rfl
      · exact (List.append_assoc _ _ _).symm

theorem camelize_eq_joined (s : List Rune) : camelize s = joined true s := by
  obtain ⟨word, words, hsplit, hjoined⟩ := joined_eq_splitBy s
  rw [camelize, flatMap_capitalized_wordsBy, hsplit, hjoined]
  rfl

/-- A separator ends what stands before it, and the text behind it is joined by itself. -/
theorem joined_append_separator (hc : isSeparator c = true) (start : Bool) (s t : List Rune) :
    joined start (s ++ c :: t) = joined start s ++ joined true t := by
  induction s generalizing start with
  | nil => exact if_pos hc
  | cons d s ih =>
    rw [List.cons_append, joined, joined]
    split
    · exact ih true
    · rw [ih false, List.append_assoc]

theorem joined_separators (h : ∀ c ∈ s, isSeparator c = true) (t : List Rune) :
    joined true (s ++ t) = joined true t := by
  induction s with
  | nil => rfl
  | cons c s ih =>
    obtain ⟨hc, hs⟩ := List.forall_mem_cons.1 h
    rw [List.cons_append, joined, if_pos hc, ih hs]

theorem mem_joined {start : Bool} (h : x ∈ joined start s) :
    ∃ c ∈ s, isSeparator c = false ∧ (x = c ∨ x ∈ upperChar c) := by
  induction s generalizing start with
  | nil => cases h
  | cons c s ih =>
    have hrest {b : Bool} (h : x ∈ joined b s) :
        ∃ d ∈ c :: s, isSeparator d = false ∧ (x = d ∨ x ∈ upperChar d) := by
      obtain ⟨d, hd, hx⟩ := ih h
      exact ⟨d, List.mem_cons_of_mem c hd, hx⟩
    rw [joined] at h
    split at h
    · exact hrest h
    · next hc =>
      rcases List.mem_append.1 h with h | h
      · refine ⟨c, List.mem_cons_self, Bool.eq_false_iff.2 hc, ?_⟩
        split at h
        · exact .inr h
        · exact .inl (List.mem_singleton.1 h)
      · exact hrest h

theorem joined_eq_nil_iff (start : Bool) (s : List Rune) :
    joined start s = [] ↔ ∀ c ∈ s, isSeparator c = true := by
  induction s generalizing start with
  | nil => exact ⟨fun _ => List.forall_mem_nil _, fun _ => rfl⟩
  | cons c rest ih =>
    rw [joined, List.forall_mem_cons]
    split
    · next hc => rw [ih, and_iff_right hc]
    · next hc =>
      refine iff_of_false (fun h => ?_) fun h => hc h.1
      have hfirst := (List.append_eq_nil_iff.1 h).1
      split at hfirst
      · exact upperChar_ne_nil c hfirst
      · exact List.cons_ne_nil c [] hfirst

/-! ### Separators -/

def separatorRanges : Ranges := (45, 47) :: (95, 95) :: blankRanges

theorem isSeparator_eq_has (c : Rune) : isSeparator c = separatorRanges.has c.toNat := by
  have hcode (d : Char) : (c == .char d) = (c.toNat == d.toNat) := by
    rw [Bool.eq_iff_iff, beq_iff_eq, beq_iff_eq, ← Rune.toNat_inj]
    rfl
  rw [isSeparator, isBlank, Bool.eq_iff_iff]
  simp only [hcode, separatorRanges, Ranges.has, Char.reduceToNat, Bool.or_eq_true, beq_iff_eq,
    Bool.and_eq_true, decide_eq_true_eq]
  by_cases hb : blankRanges.has c.toNat = true
  · simp only [hb, or_true]
  · simp only [hb, Bool.false_eq_true, or_false]
    omega

def isPlain (s : List Rune) : Bool := s.all fun c => !isSeparator c

theorem isPlain_iff : isPlain s = true ↔ ∀ x ∈ s, isSeparator x = false := by
  rw [isPlain, List.all_eq_true]
  exact forall₂_congr fun x _ => by rw [Bool.not_eq_true']

theorem separatorRanges_uncased : Uncased separatorRanges :=
  .of_apart (by decide +kernel) (by decide +kernel) (by decide) (by decide +kernel)

theorem lowerChar_plain (hc : isSeparator c = false) :
    ∀ x ∈ lowerChar c, isSeparator x = false := by
  simp only [isSeparator_eq_has] at hc ⊢
  exact separatorRanges_uncased.lowerChar hc

theorem upperChar_plain (hc : isSeparator c = false) :
    ∀ x ∈ upperChar c, isSeparator x = false := by
  simp only [isSeparator_eq_has] at hc ⊢
  exact separatorRanges_uncased.upperChar hc

theorem lowerHere_plain (b : Bool) (rest : List Rune) (hc : isSeparator c = false) :
    ∀ x ∈ lowerHere b c rest, isSeparator x = false := by
  simp only [isSeparator_eq_has] at hc ⊢
  exact separatorRanges_uncased.lowerHere b rest hc

theorem joined_plain (start : Bool) (s : List Rune) :
    ∀ x ∈ joined start s, isSeparator x = false := by
  induction s generalizing start with
  | nil => exact List.forall_mem_nil _
  | cons c rest ih =>
    rw [joined]
    split
    · exact ih true
    · next hc =>
      have hc := Bool.eq_false_iff.2 hc
      refine List.forall_mem_append.2 ⟨?_, ih false⟩
      split
      · exact upperChar_plain hc
      · exact List.forall_mem_singleton.2 hc

theorem blank_lowerCamelize_iff :
    blank (lowerCamelize s) = true ↔ ∀ c ∈ s, isSeparator c = true := by
  rw [lowerCamelize, camelize_eq_joined, ← joined_eq_nil_iff true]
  cases hj : joined true s with
  | nil => exact iff_of_true rfl rfl
  | cons c rest =>
    refine iff_of_false (fun h => ?_) (List.cons_ne_nil c rest)
    have hc : isSeparator c = false := joined_plain true s c (hj ▸ List.mem_cons_self)
    obtain ⟨x, hx⟩ := List.exists_mem_of_ne_nil _ (lowerHere_ne_nil false c [])
    have hmem : x ∈ uncapitalized (c :: rest) :=
      List.mem_append_left rest (List.mem_append_left [] hx)
    have hblank : isBlank x = true := List.all_eq_true.1 h x hmem
    have hsep := lowerHere_plain false [] hc x hx
    rw [isSeparator, hblank, Bool.or_true] at hsep
    cases hsep

end ApiPrep.Naming
