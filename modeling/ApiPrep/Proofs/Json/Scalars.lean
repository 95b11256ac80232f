import ApiPrep.Json.Reader
import ApiPrep.Json.Writer
import ApiPrep.Proofs.Outcome
import Mathlib.Data.List.TakeDrop

namespace ApiPrep.Json

variable {s rest t : List Rune} {c : Rune} {n start fuel depth : Nat}

/-! ### Whole numbers -/

theorem hexDigit?_of_isDigit (h : c.isDigit = true) :
    Decimal.hexDigit? c = some (c.toNat - '0'.toNat) := by
  rw [Decimal.hexDigit?, if_pos h]

def digits (n : Nat) : List Rune := (Nat.toDigits 10 n).map .char

theorem digits_ne_nil : digits n ≠ [] := mt List.map_eq_nil_iff.1 Nat.toDigits_ne_nil

theorem length_digits (n : Nat) : (digits n).length = (Nat.toDigits 10 n).length :=
  List.length_map _

theorem isDigit_digits (n : Nat) : ∀ c ∈ digits n, c.isDigit = true := by
  intro c hc
  obtain ⟨d, hd, rfl⟩ := List.mem_map.1 hc
  exact Rune.isDigit_char (Nat.isDigit_of_mem_toDigits (by decide) (by decide) hd)

theorem ofText_of_isDigit {s : List Char} (h : ∀ c ∈ s, c.isDigit = true) :
    Decimal.ofText 10 (s.map .char) = Nat.ofDigitChars 10 s 0 := by
  have hfold (a : Nat) :
      ((s.map Rune.char).filterMap Decimal.hexDigit?).foldl (fun n d => n * 10 + d) a =
        Nat.ofDigitChars 10 s a := by
    induction s generalizing a with
    | nil => rfl
    | cons c s ih =>
      obtain ⟨hc, hs⟩ := List.forall_mem_cons.1 h
      rw [List.map_cons, List.filterMap_cons_some (hexDigit?_of_isDigit (Rune.isDigit_char hc)),
        List.foldl_cons, ih hs, Nat.mul_comm]
      rfl
  exact hfold 0

theorem ofText_digits (n : Nat) : Decimal.ofText 10 (digits n) = n := by
  rw [digits, ofText_of_isDigit, Nat.ofDigitChars_ten_toDigits]
  intro c hc
  exact Nat.isDigit_of_mem_toDigits (by decide) (by decide) hc

theorem toDigits_eq_zero_cons {s : List Char} (h : Nat.toDigits 10 n = '0' :: s) :
    n = 0 ∧ s = [] := by
  induction n using Nat.strongRecOn generalizing s with
  | ind n ih =>
    rcases Nat.lt_or_ge n 10 with hn | hn
    · rw [Nat.toDigits_of_lt_base hn] at h
      obtain ⟨hc, rfl⟩ := List.cons.inj h
      have hzero : ∀ n < 10, n.digitChar = '0' → n = 0 := by decide
      exact ⟨hzero n hn hc, rfl⟩
    · rw [Nat.toDigits_of_base_le (by decide) hn] at h
      obtain ⟨c, front, hfront⟩ := List.exists_cons_of_ne_nil (Nat.toDigits_ne_nil (b := 10))
      rw [hfront, List.cons_append] at h
      obtain ⟨rfl, -⟩ := List.cons.inj h
      obtain ⟨hdiv, -⟩ := ih (n / 10) (by omega) hfront
      omega

theorem digits_eq_zero_cons (h : digits n = .char '0' :: s) : s = [] := by
  obtain ⟨c, t, hdigits, hc, rfl⟩ := List.map_eq_cons_iff.1 h
  cases hc
  rw [(toDigits_eq_zero_cons hdigits).2, List.map_nil]

/-- What may follow a value in a written text: nothing, the next item or a new line. -/
def Closes (rest : List Rune) : Prop := ∀ c ∈ rest.head?, c = ',' ∨ c = '\n'

theorem Closes.not_isDigit (h : Closes rest) : ∀ c ∈ rest.head?, c.isDigit = false := by
  intro c hc
  rcases h c hc with rfl | rfl <;> rfl

theorem span_isDigit_append (hs : ∀ c ∈ s, c.isDigit = true)
    (hrest : ∀ c ∈ rest.head?, c.isDigit = false) : (s ++ rest).span Rune.isDigit = (s, rest) := by
  have htake : rest.takeWhile Rune.isDigit = [] := by
    cases rest with
    | nil => rfl
    | cons c rest => rw [List.takeWhile_cons, hrest c rfl]; rfl
  have hdrop : rest.dropWhile Rune.isDigit = rest := by
    cases rest with
    | nil => rfl
    | cons c rest => rw [List.dropWhile_cons, hrest c rfl]; rfl
  rw [List.span_eq_takeWhile_dropWhile, List.takeWhile_append_of_pos hs, htake, List.append_nil,
    List.dropWhile_append_of_pos hs, hdrop]

theorem whole_digits (n : Nat) (h : Closes rest) :
    whole (digits n ++ rest) = (digits n, rest) := by
  obtain ⟨c, s, hs⟩ := List.exists_cons_of_ne_nil (digits_ne_nil (n := n))
  by_cases hc : c = '0'
  · have hnil := digits_eq_zero_cons (hc ▸ hs)
    rw [hs, hc, hnil]
    rfl
  · have hspan := span_isDigit_append (isDigit_digits n) h.not_isDigit
    rw [hs, List.cons_append] at hspan ⊢
    rw [← hspan]
    unfold whole
    split
    · next heq => exact absurd (List.cons.inj heq).1 hc
    · rfl

theorem Closes.fraction_eq (h : Closes rest) : fraction rest = ([], rest) := by
  unfold fraction
  split
  · next s => exact absurd (h ('.') rfl) (by decide)
  · rfl

theorem Closes.exponent?_eq (h : Closes rest) : exponent? rest = none := by
  cases rest with
  | nil => rfl
  | cons c rest =>
    have hne : ¬(c = 'e' ∨ c = 'E') := by
      rcases h c rfl with rfl | rfl <;> decide
    unfold exponent?
    exact if_neg hne

theorem number_digits (place : List Rune) (negative : Bool)
    (hn : (digits n).length ≤ Decimal.mostDigits) (h : Closes rest) :
    number place negative (digits n ++ rest) = .ok (.int (if negative then -n else n), rest) := by
  unfold number
  rw [whole_digits n h]
  split
  · next heq => exact absurd (Prod.mk.inj heq).1 digits_ne_nil
  · next heq =>
    obtain ⟨rfl, rfl⟩ := Prod.mk.inj heq
    rw [h.fraction_eq]
    simp only [h.exponent?_eq, if_neg (Nat.not_lt.2 hn), ofText_digits]

/-! ### Scalars outside quotes -/

theorem plainValue_of_isDigit (h : c.isDigit = true) :
    plainValue (c :: s) = number (c :: s) false (c :: s) := by
  have hne {d : Rune} {t : List Rune} (hd : d.isDigit = false) : c :: s ≠ d :: t := by
    intro he
    rw [(List.cons.inj he).1, hd] at h
    cases h
  unfold plainValue
  split
  · next heq => exact absurd heq (hne rfl)
  · next heq => exact absurd heq (hne rfl)
  · next heq => exact absurd heq (hne rfl)
  · next heq => exact absurd heq (hne rfl)
  · next heq => exact absurd heq (hne rfl)
  · next heq => exact absurd heq (hne rfl)
  · next heq => exact absurd heq (hne rfl)
  · rfl

theorem plainValue_minus (h : c.isDigit = true) :
    plainValue ('-' :: c :: s) = number ('-' :: c :: s) true (c :: s) := by
  unfold plainValue
  split
  · next heq => cases heq
  · next heq => cases heq
  · next heq => cases heq
  · next heq => cases heq
  · next heq => cases heq
  · next heq =>
    cases heq
    cases h
  · next heq =>
    cases heq
    rfl
  · next hminus => exact absurd rfl (hminus (c :: s))

theorem runes_toString (n : Int) :
    (toString n).runes = (if n < 0 then [.char '-'] else []) ++ digits n.natAbs := by
  have hdigits (m : Nat) : m.repr.runes = digits m := by
    rw [Nat.repr_eq_ofList_toDigits, String.runes, String.toList_ofList, digits]
  cases n with
  | ofNat m =>
    have hpos : ¬Int.ofNat m < 0 := Int.not_lt.2 (Int.natCast_nonneg m)
    rw [if_neg hpos]
    exact hdigits m
  | negSucc m =>
    rw [if_pos (Int.negSucc_lt_zero m)]
    change ("-" ++ (m + 1).repr).runes = _
    rw [String.runes, String.toList_append, List.map_append]
    exact congrArg (Rune.char '-' :: ·) (hdigits (m + 1))

theorem digits_head (n : Nat) : ∃ c s, digits n = c :: s ∧ c.isDigit = true := by
  obtain ⟨c, s, hs⟩ := List.exists_cons_of_ne_nil (digits_ne_nil (n := n))
  exact ⟨c, s, hs, isDigit_digits n c (hs ▸ List.mem_cons_self)⟩

theorem toString_head (n : Int) :
    ∃ c s, (toString n).runes = c :: s ∧ (c = '-' ∨ c.isDigit = true) := by
  rw [runes_toString]
  split
  · exact ⟨'-', _, rfl, .inl rfl⟩
  · obtain ⟨c, s, hs, hc⟩ := digits_head n.natAbs
    exact ⟨c, s, hs, .inr hc⟩

theorem plainValue_int (n : Int) (hn : (Nat.toDigits 10 n.natAbs).length ≤ Decimal.mostDigits)
    (h : Closes rest) :
    plainValue ((toString n).runes ++ rest) = .ok (.int n, rest) := by
  obtain ⟨c, s, hs, hc⟩ := digits_head n.natAbs
  have hnumber (place : List Rune) (negative : Bool) :=
    number_digits place negative (length_digits n.natAbs ▸ hn) h
  rw [hs, List.cons_append] at hnumber
  rw [runes_toString, hs]
  split
  · next hneg =>
    change plainValue ('-' :: c :: (s ++ rest)) = _
    rw [plainValue_minus hc, hnumber, if_pos rfl, Int.ofNat_natAbs_of_nonpos (Int.le_of_lt hneg),
      Int.neg_neg]
  · next hneg =>
    change plainValue (c :: (s ++ rest)) = _
    rw [plainValue_of_isDigit hc, hnumber, if_neg Bool.false_ne_true,
      Int.natAbs_of_nonneg (Int.not_lt.1 hneg)]

/-! ### Texts -/

theorem codeUnit?_append (hs : s.length = 4) :
    codeUnit? (s ++ rest) =
      (s.mapM Decimal.hexDigit?).map fun digits => (Decimal.ofDigits 16 digits, rest) := by
  match s, hs with
  | [a, b, c, d], _ =>
    change (([a, b, c, d].mapM Decimal.hexDigit?).bind fun digits =>
      some (Decimal.ofDigits 16 digits, rest)) = _
    cases [a, b, c, d].mapM Decimal.hexDigit? <;> rfl

theorem codeUnit?_hex (hn : n < 0x20) : codeUnit? (Text.hex 4 n ++ rest) = some (n, rest) := by
  have htable : ∀ n < 0x20, (Text.hex 4 n).length = 4 ∧
      ((Text.hex 4 n).mapM Decimal.hexDigit?).map (Decimal.ofDigits 16) = some n := by decide
  obtain ⟨hlength, hvalue⟩ := htable n hn
  rw [codeUnit?_append hlength]
  obtain ⟨digits, hdigits, rfl⟩ := Option.map_eq_some_iff.1 hvalue
  rw [hdigits]
  rfl

theorem escaped_hex (hn : c.toNat < 0x20) (ht : t ≠ []) :
    escaped start ('u' :: (Text.hex 4 c.toNat ++ t)) = .ok (c, t) := by
  have htable : ∀ n < 0x20, (Text.hex 4 n).length = 4 := by decide
  have hlong : ¬(Text.hex 4 c.toNat ++ t).length ≤ 4 := by
    have hpos := List.length_pos_iff.2 ht
    rw [List.length_append, htable _ hn]
    omega
  have hpair : pairUp c.toNat t = .ok (c, t) := by
    have hfirst : ¬(0xD800 ≤ c.toNat ∧ c.toNat ≤ 0xDBFF) := by omega
    simp only [pairUp, if_neg hfirst, Rune.ofNat_toNat]
  rw [escaped, if_neg hlong, codeUnit?_hex hn]
  exact hpair

theorem textBody_writtenChar (ht : t ≠ []) :
    textBody start (fuel + 1) (writtenChar c ++ t) =
      (textBody start fuel t).map fun r => (c :: r.1, r.2) := by
  have hescape {d : Rune} (h : ∀ u, escaped start (d :: u) = .ok (c, u)) :
      textBody start (fuel + 1) ('\\' :: d :: t) =
        (textBody start fuel t).map fun r => (c :: r.1, r.2) := by
    rw [textBody, h, Outcome.ok_bind]
    change (textBody start fuel t >>= fun r => .ok (c :: r.1, r.2)) = _
    cases textBody start fuel t <;> rfl
  unfold writtenChar
  -- The seven characters that have an escape of their own.
  iterate 7
    split
    · next hc =>
      subst hc
      exact hescape fun _ => rfl
  split
  · next hc =>
    change textBody start (fuel + 1) ('\\' :: 'u' :: (Text.hex 4 c.toNat ++ t)) = _
    rw [textBody, escaped_hex hc ht, Outcome.ok_bind]
    change (textBody start fuel t >>= fun r => .ok (c :: r.1, r.2)) = _
    cases textBody start fuel t <;> rfl
  · next hquote hslash _ _ _ _ _ hcontrol =>
    change textBody start (fuel + 1) (c :: t) = _
    rw [textBody, if_neg hcontrol]
    · cases textBody start fuel t <;> rfl
    · exact hquote
    · exact hslash

theorem textBody_written (h : s.length < fuel) :
    textBody start fuel (s.flatMap writtenChar ++ .char '"' :: rest) = .ok (s, rest) := by
  induction s generalizing fuel with
  | nil =>
    cases fuel with
    | zero => cases h
    | succ fuel => rfl
  | cons c s ih =>
    cases fuel with
    | zero => cases h
    | succ fuel =>
      have ht : s.flatMap writtenChar ++ .char '"' :: rest ≠ [] :=
        List.append_ne_nil_of_right_ne_nil _ nofun
      rw [List.flatMap_cons, List.append_assoc, textBody_writtenChar ht,
        ih (Nat.lt_of_succ_lt_succ h)]
      rfl

theorem length_le_length_written (s : List Rune) : s.length ≤ (s.flatMap writtenChar).length := by
  induction s with
  | nil => exact Nat.le_refl _
  | cons c s ih =>
    have hc : 0 < (writtenChar c).length := by
      unfold writtenChar
      split_ifs <;> exact Nat.succ_pos _
    rw [List.flatMap_cons, List.length_append, List.length_cons]
    omega

theorem quotedText_written (s : Text) (rest : List Rune) :
    quotedText (s.toList.flatMap writtenChar ++ .char '"' :: rest) = .ok (s, rest) := by
  have hfuel := length_le_length_written s.toList
  rw [quotedText, textBody_written]
  · change Except.ok (Text.ofList s.toList, rest) = _
    rw [Text.ofList_toList]
  · rw [List.length_append]
    omega

end ApiPrep.Json
