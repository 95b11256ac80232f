import ApiPrep.Naming.FileNames
import ApiPrep.Proofs.Naming.Words
import ApiPrep.Proofs.Text.Pieces

namespace ApiPrep.Naming

open Text

variable {c before : Rune} {s t : List Rune}

def startsWord (before c : Rune) (rest : List Rune) : Bool :=
  c.isUpper && (before.isLower || isDigit before ||
    before.isUpper && (rest.head?.map Rune.isLower).getD false)

def KeepsCase : (before : Rune) → List Rune → Prop
  | _, [] => True
  | before, c :: rest => (startsWord before c rest = true ∨ lowerChar c = [c]) ∧ KeepsCase c rest

/-- A name without separators, of words in lower case that start with capitals each. -/
def Recoverable : List Rune → Prop
  | [] => True
  | c :: rest =>
    (∀ x ∈ c :: rest, isSeparator x = false) ∧ capitalized (lowerChar c) = [c] ∧ KeepsCase c rest

instance decidableKeepsCase (before : Rune) : (s : List Rune) → Decidable (KeepsCase before s)
  | [] => .isTrue trivial
  | c :: rest =>
    have := decidableKeepsCase c rest
    inferInstanceAs (Decidable (_ ∧ KeepsCase c rest))

instance decidableRecoverable : (s : List Rune) → Decidable (Recoverable s)
  | [] => .isTrue trivial
  | c :: rest =>
    have := decidable_of_iff _ (isPlain_iff (s := c :: rest))
    inferInstanceAs (Decidable (_ ∧ _ ∧ KeepsCase c rest))

/-! ### Words that are told apart -/

def marked : (before : Rune) → List Rune → List Rune
  | _, [] => []
  | before, c :: rest =>
    if startsWord before c rest then '_' :: c :: marked c rest else c :: marked c rest

theorem markAcronyms_cons (a b : Rune) (s : List Rune) :
    markAcronyms (a :: b :: s) =
      if a.isUpper && b.isUpper && (s.head?.map Rune.isLower).getD false then
        a :: '_' :: markAcronyms (b :: s)
      else a :: markAcronyms (b :: s) := by
  cases s with
  | nil => simp only [List.head?_nil, Option.map_none, Option.getD_none, Bool.and_false]; rfl
  | cons c s => rfl

theorem head?_markAcronyms (a : Rune) (s : List Rune) :
    ∃ rest, markAcronyms (a :: s) = a :: rest := by
  cases s with
  | nil => exact ⟨[], rfl⟩
  | cons b s =>
    rw [markAcronyms_cons]
    split <;> exact ⟨_, rfl⟩

theorem markWords_cons (a b : Rune) (s : List Rune) :
    markWords (a :: b :: s) =
      if (a.isLower || isDigit a) && b.isUpper then a :: '_' :: markWords (b :: s)
      else a :: markWords (b :: s) := rfl

theorem markWords_markAcronyms (a : Rune) (s : List Rune) :
    markWords (markAcronyms (a :: s)) = a :: marked a s := by
  induction s generalizing a with
  | nil => rfl
  | cons b s ih =>
    obtain ⟨rest, hrest⟩ := head?_markAcronyms b s
    have ihb := ih b
    rw [markAcronyms_cons, marked, startsWord, hrest]
    rw [hrest] at ihb
    cases hb : b.isUpper with
    | false =>
      simp only [Bool.and_false, Bool.false_and, Bool.false_eq_true, ↓reduceIte, markWords_cons, hb,
        ihb]
    | true =>
      cases ha : a.isUpper && (s.head?.map Rune.isLower).getD false with
      | true =>
        have hu : (Rune.char '_').isUpper = false := rfl
        have hl : ((Rune.char '_').isLower || isDigit ('_')) = false := rfl
        simp only [Bool.and_true, Bool.or_true, ha, ↓reduceIte, markWords_cons, hu, hl,
          Bool.and_false, Bool.false_and, Bool.false_eq_true, ihb]
      | false =>
        simp only [Bool.and_true, Bool.true_and, Bool.or_false, ha, ↓reduceIte, Bool.false_eq_true,
          markWords_cons, hb, ihb]
        split <;> rfl

/-! ### Words that are joined again -/

def dashed (casedBefore : Bool) (s : List Rune) : List Rune :=
  (lowerAfter casedBefore (s.map fun c => if c = .char '-' then '_' else c)).map fun c =>
    if c = .char '_' ∨ c = .char ' ' then .char '-' else c

theorem dashize_cons (c : Rune) (s : List Rune) :
    dashize (c :: s) = dashed false (c :: marked c s) := by
  rw [← markWords_markAcronyms]
  rfl

theorem map_dash_plain (h : ∀ x ∈ s, isSeparator x = false) :
    (s.map fun c => if c = .char '_' ∨ c = .char ' ' then .char '-' else c) = s := by
  refine (List.map_congr_left fun x hx => if_neg ?_).trans (List.map_id s)
  rintro (rfl | rfl)
  · exact absurd (h _ hx) (by decide)
  · exact absurd (h _ hx) (by decide)

theorem dashed_plain (b : Bool) (s : List Rune) (hc : isSeparator c = false) :
    ∃ rest b', dashed b (c :: s) = lowerHere b c rest ++ dashed b' s := by
  have hne : c ≠ '-' := by
    rintro rfl
    cases hc
  refine ⟨s.map fun c => if c = .char '-' then '_' else c, ?_⟩
  obtain ⟨b', hlower⟩ := lowerAfter_cons b c (s.map fun c => if c = .char '-' then '_' else c)
  refine ⟨b', ?_⟩
  rw [dashed, List.map_cons, if_neg hne, hlower, List.map_append,
    map_dash_plain (lowerHere_plain b _ hc)]
  rfl

theorem dashed_mark (b : Bool) (s : List Rune) :
    dashed b ('_' :: s) = .char '-' :: dashed false s := rfl

theorem joined_append (h : ∀ x ∈ s, isSeparator x = false) (t : List Rune) :
    joined false (s ++ t) = s ++ joined false t := by
  induction s with
  | nil => rfl
  | cons c s ih =>
    obtain ⟨hc, hs⟩ := List.forall_mem_cons.1 h
    rw [List.cons_append, joined, if_neg (Bool.eq_false_iff.1 hc), ih hs]
    rfl

theorem joined_true_append (hn : s ≠ []) (h : ∀ x ∈ s, isSeparator x = false) (t : List Rune) :
    joined true (s ++ t) = capitalized s ++ joined false t := by
  cases s with
  | nil => exact absurd rfl hn
  | cons c s =>
    obtain ⟨hc, hs⟩ := List.forall_mem_cons.1 h
    rw [List.cons_append, joined, if_neg (Bool.eq_false_iff.1 hc), joined_append hs]
    exact (List.append_assoc _ _ _).symm

theorem camelize_plain (hn : s ≠ []) (h : ∀ x ∈ s, isSeparator x = false) :
    camelize s = capitalized s := by
  have hjoined := joined_true_append hn h []
  rwa [List.append_nil, joined, List.append_nil, ← camelize_eq_joined] at hjoined

theorem append_eq_cons_iff_of_le {r : List Rune} (hs : s ≠ []) (hr : t.length ≤ r.length) :
    s ++ r = c :: t ↔ s = [c] ∧ r = t := by
  constructor
  · intro h
    rcases List.append_eq_cons_iff.1 h with ⟨hnil, _⟩ | ⟨more, rfl, rfl⟩
    · exact absurd hnil hs
    · rw [List.length_append] at hr
      obtain rfl : more = [] := List.length_eq_zero_iff.1 (by omega)
      exact ⟨rfl, rfl⟩
  · rintro ⟨rfl, rfl⟩
    rfl

theorem capital_of_isUpper (hc : c.isUpper = true) : capitalized (lowerChar c) = [c] := by
  have hascii : ∀ c : Rune, c.toNat < 128 → c.isUpper = true → capitalized (lowerChar c) = [c] :=
    forall_ascii (by decide +kernel)
  exact hascii c (Nat.lt_of_le_of_lt (Rune.isUpper_iff.1 hc).2 (by decide)) hc

theorem capitalized_ne_nil (hs : s ≠ []) : capitalized s ≠ [] := by
  cases s with
  | nil => exact absurd rfl hs
  | cons c s => exact List.append_ne_nil_of_left_ne_nil (upperChar_ne_nil c) s

/-- What comes of the rest of a word and the words after it. It never gets shorter, and so it is
what it was exactly if each character is. -/
theorem joined_dashed_marked (ht : ∀ x ∈ t, isSeparator x = false) (before : Rune) (b : Bool) :
    t.length ≤ (joined false (dashed b (marked before t))).length ∧
      (joined false (dashed b (marked before t)) = t ↔ KeepsCase before t) := by
  induction t generalizing before b with
  | nil => exact ⟨Nat.le_refl 0, iff_of_true rfl trivial⟩
  | cons c t ih =>
    obtain ⟨hc, ht⟩ := List.forall_mem_cons.1 ht
    rw [marked, KeepsCase]
    by_cases hw : startsWord before c t = true
    · -- The dash before the word brings its capital back.
      obtain ⟨rest, b', hd⟩ := dashed_plain false (marked c t) hc
      obtain ⟨hlength, heq⟩ := ih ht c b'
      have hupper : c.isUpper = true := (Bool.and_eq_true_iff.1 hw).1
      have hjoined : joined false (dashed b (.char '_' :: c :: marked c t)) =
          c :: joined false (dashed b' (marked c t)) := by
        rw [dashed_mark, joined, if_pos (by decide), hd, lowerHere_false,
          joined_true_append (lowerChar_ne_nil c) (lowerChar_plain hc), capital_of_isUpper hupper]
        rfl
      rw [if_pos hw, hjoined]
      refine ⟨Nat.succ_le_succ hlength, ?_⟩
      rw [List.cons.injEq, and_iff_right rfl, heq, and_iff_right (Or.inl hw)]
    · -- The character stays in lower case, where it may have become several.
      obtain ⟨rest, b', hd⟩ := dashed_plain b (marked c t) hc
      obtain ⟨hlength, heq⟩ := ih ht c b'
      have hne := lowerHere_ne_nil b c rest
      have hpos := List.length_pos_iff.2 hne
      rw [if_neg hw, hd, joined_append (lowerHere_plain b rest hc)]
      refine ⟨?_, ?_⟩
      · rw [List.length_append, List.length_cons]
        omega
      · rw [append_eq_cons_iff_of_le hne hlength, lowerHere_eq_self_iff, heq, or_iff_right hw]

/-- A name is recovered from its words in lower case iff it has no separators and its capitals are
the letters with which words start. -/
theorem camelize_dashize_eq_iff (s : List Rune) : camelize (dashize s) = s ↔ Recoverable s := by
  cases s with
  | nil => exact iff_of_true rfl trivial
  | cons c t =>
    rw [Recoverable, camelize_eq_joined]
    by_cases hplain : ∀ x ∈ c :: t, isSeparator x = false
    · obtain ⟨hc, ht⟩ := List.forall_mem_cons.1 hplain
      obtain ⟨rest, b', hd⟩ := dashed_plain false (marked c t) hc
      obtain ⟨hlength, heq⟩ := joined_dashed_marked ht c b'
      have hlower := lowerChar_ne_nil c
      rw [dashize_cons, hd, lowerHere_false, joined_true_append hlower (lowerChar_plain hc),
        append_eq_cons_iff_of_le (capitalized_ne_nil hlower) hlength, heq, and_iff_right hplain]
    · refine iff_of_false (fun h => ?_) fun h => hplain h.1
      exact hplain (h ▸ joined_plain true _)

example : Recoverable "GridApi2Response".runes ∧ ¬ Recoverable "XMLParser".runes ∧
    ¬ Recoverable "widget".runes := by decide +kernel

/-! ### Model files -/

namespace FileNames

variable {f : FileNames} {name : Text}

theorem modelOfFile_eq_camelize (f : FileNames) (name : Text) :
    f.modelOfFile (f.modelImport name) = respell camelize (f.modelFile name) := by
  simp only [modelOfFile, modelImport, respell, Text.toList_append, dropLead,
    afterLead?_append, Option.getD_some]

theorem modelOfFile_modelImport (hk : f.kebab = true) (name : Text) :
    f.modelOfFile (f.modelImport name) = respell (fun word => camelize (dashize word)) name := by
  simp only [modelOfFile_eq_camelize, modelFile, hk, ↓reduceIte, respell, Text.toList_ofList]

theorem modelOfFile_modelImport_eq_iff (hk : f.kebab = true) :
    f.modelOfFile (f.modelImport name) = name ↔ Recoverable name.toList := by
  rw [modelOfFile_modelImport hk, respell, ← camelize_dashize_eq_iff]
  constructor
  · intro h
    have hlist := congrArg Text.toList h
    rwa [Text.toList_ofList] at hlist
  · intro h
    rw [h, Text.ofList_toList]

end FileNames

end ApiPrep.Naming
