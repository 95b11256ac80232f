import ApiPrep.Proofs.Naming.Identifier
import ApiPrep.Proofs.Text.Pieces

namespace ApiPrep.Naming

open Text

variable {c x : Rune} {s id : List Rune}

/-- What may be the name of a method: letters, digits, underscores and dollars, without a digit
at the start, that are no reserved word. -/
structure IsMethodName (name : List Rune) : Prop where
  ne_nil : name ≠ []
  chars : ∀ c ∈ name, isWordChar c = true ∨ c = '$'
  start : startsWithDigit name = false
  free : Text.ofList name ∉ reservedWords

def breaksWord (c : Rune) : Bool := c == '-' || c == '_' || c == '.' || isBlank c

/-- The words of an id, of which only the letters and digits of ASCII count. -/
def wordsOf (id : List Rune) : List (List Rune) :=
  ((splitBy breaksWord id).map (List.filter Rune.isAlphanum)).filter (· ≠ [])

def joinWords (words : List (List Rune)) : List Rune := uncapitalized (words.flatMap capitalized)

/-! ### Words of an id -/

theorem breaksWord_of_plain (h : isSeparator c = false) : breaksWord c = false := by
  simp only [isSeparator, Bool.or_eq_false_iff] at h
  simp only [breaksWord, h, Bool.or_self]

theorem breaksWord_of_isAlphanum (h : c.isAlphanum = true) : breaksWord c = false :=
  breaksWord_of_plain (isSeparator_of_isAlphanum h)

theorem sanitize_cons (c : Rune) (s : List Rune) :
    sanitize (c :: s) =
      if breaksWord c then .char '_' :: sanitize s
      else if c.isAlphanum then c :: sanitize s else sanitize s := by
  have hbar : isNameChar ('_') = true := by decide
  by_cases hbreak : c = .char '-' ∨ c = .char '.' ∨ isBlank c = true
  · have hb : breaksWord c = true := by
      simp only [breaksWord, Bool.or_eq_true, beq_iff_eq]
      tauto
    rw [if_pos hb, sanitize, List.map_cons, if_pos hbreak, List.filter_cons_of_pos hbar, sanitize]
  · rw [sanitize, List.map_cons, if_neg hbreak, List.filter_cons, ← sanitize]
    by_cases hunder : c = '_'
    · rw [hunder]
      rfl
    · have hb : breaksWord c = false := by
        simp only [breaksWord, Bool.or_eq_false_iff, beq_eq_false_iff_ne]
        simp only [not_or] at hbreak
        exact ⟨⟨⟨hbreak.1, hunder⟩, hbreak.2.1⟩, Bool.eq_false_iff.2 hbreak.2.2⟩
      rw [hb, isNameChar, beq_eq_false_iff_ne.2 hunder, Bool.or_false]
      rfl

theorem sanitize_append (s t : List Rune) : sanitize (s ++ t) = sanitize s ++ sanitize t := by
  rw [sanitize, List.map_append, List.filter_append]
  rfl

theorem sanitize_plain (h : ∀ x ∈ s, isSeparator x = false) :
    sanitize s = s.filter Rune.isAlphanum := by
  induction s with
  | nil => rfl
  | cons c s ih =>
    obtain ⟨hc, hs⟩ := List.forall_mem_cons.1 h
    rw [sanitize_cons, breaksWord_of_plain hc, if_neg Bool.false_ne_true, ih hs, List.filter_cons]

theorem splitBy_sanitize (s : List Rune) :
    splitBy isSeparator (sanitize s) =
      (splitBy breaksWord s).map (List.filter Rune.isAlphanum) := by
  induction s with
  | nil => rfl
  | cons c s ih =>
    obtain ⟨word, words, hsplit, hcons⟩ := splitBy_cons breaksWord c s
    rw [hsplit, List.map_cons] at ih
    rw [hcons, sanitize_cons]
    cases hb : breaksWord c with
    | true =>
      have hbar : isSeparator (.char '_') = true := by decide
      simp only [↓reduceIte, splitBy, ih, hbar, List.map_cons, List.filter_nil]
    | false =>
      cases ha : c.isAlphanum with
      | true =>
        simp only [Bool.false_eq_true, ↓reduceIte, splitBy, ih, isSeparator_of_isAlphanum ha,
          List.map_cons, List.filter_cons, ha]
      | false =>
        simp only [Bool.false_eq_true, ↓reduceIte, ih, List.map_cons, List.filter_cons, ha]

theorem lowerCamelize_sanitize (id : List Rune) :
    lowerCamelize (sanitize id) = joinWords (wordsOf id) := by
  rw [lowerCamelize, camelize, wordsBy, splitBy_sanitize]
  rfl

/-! ### Characters of a name -/

theorem isAlphanum_of_mem_sanitize (h : c ∈ sanitize s) (hc : isSeparator c = false) :
    c.isAlphanum = true := by
  rw [sanitize, List.mem_filter, isNameChar, Bool.or_eq_true, beq_iff_eq] at h
  refine h.2.resolve_right ?_
  rintro rfl
  exact absurd hc (by decide)

theorem isWordChar_of_isAlphanum (h : c.isAlphanum = true) : isWordChar c = true := by
  rw [isWordChar, if_pos (lt_of_isAlphanum h), h, Bool.true_or]

theorem recased_of_isAlphanum (h : c.isAlphanum = true) :
    (upperChar c).all Rune.isAlphanum = true ∧ lower [c.toUpper] = [c.toUpper.toLower] ∧
      c.toUpper.toLower.isAlphanum = true ∧ isDigit c.toUpper.toLower = c.isDigit := by
  have hascii : ∀ c : Rune, c.toNat < 128 → c.isAlphanum = true →
      (upperChar c).all Rune.isAlphanum = true ∧ lower [c.toUpper] = [c.toUpper.toLower] ∧
        c.toUpper.toLower.isAlphanum = true ∧ isDigit c.toUpper.toLower = c.isDigit :=
    forall_ascii (by decide +kernel)
  exact hascii c (lt_of_isAlphanum h) h

theorem isAlphanum_of_mem_joined {start : Bool} (h : x ∈ joined start (sanitize s)) :
    x.isAlphanum = true := by
  obtain ⟨c, hc, hsep, hx⟩ := mem_joined h
  have ha := isAlphanum_of_mem_sanitize hc hsep
  rcases hx with rfl | hx
  · exact ha
  · exact List.all_eq_true.1 (recased_of_isAlphanum ha).1 x hx

theorem joined_sanitize (h : id.find? Rune.isAlphanum = some c) :
    ∃ rest, joined true (sanitize id) = c.toUpper :: rest := by
  induction id with
  | nil => cases h
  | cons d id ih =>
    rw [sanitize_cons]
    cases ha : d.isAlphanum with
    | true =>
      rw [List.find?_cons_of_pos ha] at h
      obtain rfl := Option.some.inj h
      have hupper : upperChar d = [d.toUpper] := if_pos (lt_of_isAlphanum ha)
      rw [breaksWord_of_isAlphanum ha, if_neg Bool.false_ne_true, if_pos rfl, joined,
        isSeparator_of_isAlphanum ha, if_neg Bool.false_ne_true, if_pos rfl, hupper]
      exact ⟨_, rfl⟩
    | false =>
      rw [List.find?_cons_of_neg (Bool.eq_false_iff.1 ha)] at h
      obtain ⟨rest, hrest⟩ := ih h
      refine ⟨rest, ?_⟩
      split
      · rw [← hrest]
        rfl
      · exact hrest

theorem joinWords_wordsOf (h : id.find? Rune.isAlphanum = some c) :
    ∃ rest, joinWords (wordsOf id) = c.toUpper.toLower :: rest ∧
      ∀ x ∈ c.toUpper.toLower :: rest, x.isAlphanum = true := by
  have ha := List.find?_some h
  obtain ⟨-, hone, hletter, -⟩ := recased_of_isAlphanum ha
  obtain ⟨rest, hjoined⟩ := joined_sanitize h
  refine ⟨rest, ?_, List.forall_mem_cons.2 ⟨hletter, fun x hx => ?_⟩⟩
  · rw [← lowerCamelize_sanitize, lowerCamelize, camelize_eq_joined, hjoined, uncapitalized, hone]
    rfl
  · have hmem : x ∈ joined true (sanitize id) := hjoined ▸ List.mem_cons_of_mem _ hx
    exact isAlphanum_of_mem_joined hmem

/-! ### Names of reserved words -/

theorem isAlpha_of_mem_reserved {w : Text} (h : w ∈ reservedWords) :
    ∀ x ∈ w.toList, x.isAlpha = true := List.all_eq_true.1 (reserved_spelling w h).2.1

theorem isAlphanum_of_isAlpha (h : c.isAlpha = true) : c.isAlphanum = true := by
  rw [Rune.isAlphanum, h, Bool.true_or]

theorem toNat_of_isAlpha (h : c.isAlpha = true) : 65 ≤ c.toNat ∧ c.toNat ≤ 122 := by
  have hascii : ∀ c : Rune, c.toNat < 128 → c.isAlpha = true → 65 ≤ c.toNat ∧ c.toNat ≤ 122 :=
    forall_ascii (by decide +kernel)
  exact hascii c (lt_of_isAlphanum (isAlphanum_of_isAlpha h)) h

/-- The only letter beyond ASCII that becomes one of ASCII is the sign for kelvin. -/
theorem isAlpha_of_lowerChar (h : ∀ x ∈ lowerChar c, x.isAlpha = true) :
    c.isAlpha = true ∨ c = '\u212a' := by
  have hascii : ∀ c : Rune, c.toNat < 128 → c.toLower.isAlpha = true → c.isAlpha = true :=
    forall_ascii (by decide +kernel)
  have hruns : ∀ r ∈ lowerRuns, (r.last + r.shift < 65 ∨ 122 < r.first + r.shift) ∨
      r.first = 8490 ∧ r.last = 8490 := by decide +kernel
  rw [lowerChar] at h
  split at h
  · next hc => exact .inl (hascii c hc (h _ List.mem_cons_self))
  · next hc =>
    split at h
    · exact absurd (h ('\u0307') (by decide)) (by decide)
    · have hletter := toNat_of_isAlpha (h _ List.mem_cons_self)
      rcases caseRuns_land.1.toNat_shiftBy c with he | ⟨r, hr, hbounds, he⟩
      · rw [he] at hletter
        omega
      · have hkelvin : c.toNat = 8490 := by
          have hrun := hruns r hr
          omega
        exact .inr (Rune.toNat_inj.1 hkelvin)

theorem lowerHere_subset {b : Bool} (h : c ∈ s) :
    ∃ b' rest, ∀ x ∈ lowerHere b' c rest, x ∈ lowerAfter b s := by
  induction s generalizing b with
  | nil => cases h
  | cons d s ih =>
    obtain ⟨b', hb⟩ := lowerAfter_cons b d s
    rw [hb]
    rcases List.mem_cons.1 h with rfl | h
    · exact ⟨b, s, fun x hx => List.mem_append_left _ hx⟩
    · obtain ⟨b'', rest, hsub⟩ := ih h
      exact ⟨b'', rest, fun x hx => List.mem_append_right _ (hsub x hx)⟩

theorem isAlpha_of_isReserved (h : isReserved id = true) :
    ∀ c ∈ id, c.isAlpha = true ∨ c = '\u212a' := by
  intro c hc
  rw [isReserved, Bool.or_eq_true, List.contains_iff_mem, List.contains_iff_mem] at h
  rcases h with h | h
  · have hletters := isAlpha_of_mem_reserved h
    rw [Text.toList_ofList] at hletters
    exact .inl (hletters c hc)
  · have hletters := isAlpha_of_mem_reserved h
    rw [Text.toList_ofList, lower] at hletters
    obtain ⟨b, rest, hsub⟩ := lowerHere_subset (b := false) hc
    have hhere := fun x hx => hletters x (hsub x hx)
    rcases lowerHere_cases b c rest with he | ⟨-, he⟩
    · exact isAlpha_of_lowerChar (he ▸ hhere)
    · rw [he] at hhere
      exact absurd (hhere _ List.mem_cons_self) (by decide)

theorem isWordChar_of_mem_joined {start : Bool} (h : isReserved id = true)
    (hx : x ∈ joined start id) : isWordChar x = true := by
  obtain ⟨c, hc, -, hx⟩ := mem_joined hx
  rcases isAlpha_of_isReserved h c hc with ha | rfl
  · have hletter := isAlphanum_of_isAlpha ha
    rcases hx with rfl | hx
    · exact isWordChar_of_isAlphanum hletter
    · apply isWordChar_of_isAlphanum
      exact List.all_eq_true.1 (recased_of_isAlphanum hletter).1 x hx
  · have hx : x ∈ .char '\u212a' :: upperChar (.char '\u212a') := List.mem_cons.2 hx
    have hall : (.char '\u212a' :: upperChar (.char '\u212a')).all isWordChar = true := by
      decide +kernel
    exact List.all_eq_true.1 hall x hx

theorem lowerCamelize_call (id : List Rune) :
    lowerCamelize ("call_".runes ++ id) = "call".runes ++ joined true id := by
  rw [lowerCamelize, camelize_eq_joined]
  rfl

theorem operationId_of_isReserved (h : isReserved id = true) :
    (operationId id).1 = "call".runes ++ joined true id := by
  rw [operationId, if_pos h, lowerCamelize_call]

theorem operationId_of_free (h : isReserved id = false) :
    (operationId id).1 = lowerCamelize (sanitize id) := by
  rw [operationId, h, if_neg Bool.false_ne_true]

theorem call_not_reserved (s : List Rune) :
    Text.ofList ("call".runes ++ s) ∉ reservedWords := by
  intro h
  have hlead := (reserved_spelling _ h).2.2
  rw [Text.toList_ofList, Bool.eq_false_iff] at hlead
  exact hlead (List.isPrefixOf_iff_prefix.2 (List.prefix_append _ s))

/-! ### Method names -/

theorem isMethodName_of_isReserved (h : isReserved id = true) :
    IsMethodName (operationId id).1 := by
  have hlead : [Rune.char 'c', 'a', 'l', 'l'].all Rune.isAlphanum = true := rfl
  rw [operationId_of_isReserved h]
  refine ⟨List.cons_ne_nil _ _, fun x hx => .inl ?_, rfl, call_not_reserved _⟩
  rcases List.mem_append.1 hx with hx | hx
  · exact isWordChar_of_isAlphanum (List.all_eq_true.1 hlead x hx)
  · exact isWordChar_of_mem_joined h hx

/-- What is no reserved word itself becomes a method name unless it starts with a digit or its
words make a reserved one. -/
theorem isMethodName_iff_of_free (h : isReserved id = false)
    (hc : id.find? Rune.isAlphanum = some c) :
    ((operationId id).1 ≠ [] ∧ ∀ x ∈ (operationId id).1, isWordChar x = true ∨ x = '$') ∧
      (IsMethodName (operationId id).1 ↔
        c.isDigit = false ∧ Text.ofList (joinWords (wordsOf id)) ∉ reservedWords) := by
  have hname : (operationId id).1 = joinWords (wordsOf id) := by
    rw [operationId_of_free h, lowerCamelize_sanitize]
  obtain ⟨rest, hwords, hchars⟩ := joinWords_wordsOf hc
  have hfirst := List.find?_some hc
  have hstart : startsWithDigit (joinWords (wordsOf id)) = c.isDigit := by
    rw [hwords, ← (recased_of_isAlphanum hfirst).2.2.2]
    rfl
  have hne : joinWords (wordsOf id) ≠ [] := hwords ▸ List.cons_ne_nil _ _
  have hall : ∀ x ∈ joinWords (wordsOf id), isWordChar x = true ∨ x = '$' := by
    intro x hx
    exact .inl (isWordChar_of_isAlphanum (hchars x (hwords ▸ hx)))
  rw [hname]
  refine ⟨⟨hne, hall⟩, fun hm => ⟨hstart ▸ hm.start, hm.free⟩, ?_⟩
  rintro ⟨hdigit, hfree⟩
  exact ⟨hne, hall, hstart.trans hdigit, hfree⟩

/-- An id with a letter becomes a name of letters and digits that is not empty. It may be the name
of a method iff the id is itself reserved, so that a word is put in front, or its first letter or
digit is no digit and its words do not make a reserved word. -/
theorem usual_isMethodName_iff (id : Text) (h : ∃ c ∈ id.toList, c.isAlpha = true) :
    ∃ name, (IdRule.usual id).run.value = .ok (Text.ofList name) ∧
      name ≠ [] ∧ (∀ c ∈ name, isWordChar c = true ∨ c = '$') ∧
      (IsMethodName name ↔ isReserved id.toList = true ∨
        (∀ c, id.toList.find? Rune.isAlphanum = some c → c.isDigit = false) ∧
          Text.ofList (joinWords (wordsOf id.toList)) ∉ reservedWords) := by
  obtain ⟨letter, hmem, hletter⟩ := h
  have hid : id ≠ "" := by
    rintro rfl
    cases hmem
  refine ⟨_, IdRule.usual_eq_ok hid, ?_⟩
  cases hreserved : isReserved id.toList with
  | true =>
    have hname := isMethodName_of_isReserved hreserved
    exact ⟨hname.ne_nil, hname.chars, iff_of_true hname (.inl rfl)⟩
  | false =>
    have hsome : (id.toList.find? Rune.isAlphanum).isSome :=
      List.find?_isSome.2 ⟨letter, hmem, isAlphanum_of_isAlpha hletter⟩
    obtain ⟨c, hc⟩ := Option.isSome_iff_exists.1 hsome
    obtain ⟨⟨hne, hchars⟩, hiff⟩ := isMethodName_iff_of_free hreserved hc
    refine ⟨hne, hchars, hiff.trans ?_⟩
    simp only [hc, Option.some.injEq, forall_eq', Bool.false_eq_true, false_or]

theorem usual_isMethodName_iff_deleteItem :
    (∃ c ∈ "(delete) item".runes, c.isAlpha = true) ∧
    ∃ name, (IdRule.usual "(delete) item").run.value = .ok (Text.ofList name) ∧
      IsMethodName name := by
  have h : ∃ c ∈ "(delete) item".runes, c.isAlpha = true := ⟨'d', by decide, by decide⟩
  obtain ⟨name, hname, -, -, hiff⟩ := usual_isMethodName_iff "(delete) item" h
  refine ⟨h, name, hname, hiff.2 (.inr ⟨?_, by decide +kernel⟩)⟩
  intro c hc
  obtain rfl : 'd' = c := Option.some.inj hc
  decide

/-- Words that are reserved once a sign is dropped or their first letter is in lower case, and a
digit at the start. -/
theorem usual_leaves_reserved :
    (IdRule.usual "delete()").run.value = .ok "delete" ∧ ¬IsMethodName "delete".runes ∧
    (IdRule.usual "VarLocalPath").run.value = .ok "varLocalPath" ∧
      ¬IsMethodName "varLocalPath".runes ∧
    (IdRule.usual "2fa").run.value = .ok "2fa" ∧ ¬IsMethodName "2fa".runes := by
  refine ⟨by decide +kernel, fun h => h.free (by decide), by decide +kernel,
    fun h => h.free (by decide), by decide +kernel, fun h => ?_⟩
  exact absurd h.start (by decide)

end ApiPrep.Naming
