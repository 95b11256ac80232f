import ApiPrep.Proofs.Text.Case

namespace ApiPrep.Text

variable {α : Type} {runs : List CaseRun} {r : CaseRun} {c x : Rune} {s : List Rune} {n : Nat}

/-! ### Code points as bits -/

def strided (step : Nat) : Nat → Nat
  | 0 => 1
  | count + 1 => strided step count <<< step ||| 1

theorem testBit_strided {step count k : Nat} (h : k ≤ count) :
    (strided step count).testBit (step * k) = true := by
  induction count generalizing k with
  | zero =>
    rw [Nat.le_zero.1 h, Nat.mul_zero, strided]
    rfl
  | succ count ih =>
    rw [strided, Nat.testBit_or, Nat.testBit_shiftLeft]
    cases k with
    | zero =>
      rw [Nat.mul_zero]
      exact Bool.or_true _
    | succ k =>
      rw [Nat.mul_succ, Nat.add_sub_cancel, ih (Nat.le_of_succ_le_succ h),
        decide_eq_true (Nat.le_add_left step _)]
      rfl

/-- The code points of the run moved to `start`, as the bits of a number. -/
def CaseRun.bits (r : CaseRun) (start : Nat) : Nat :=
  strided r.step ((r.last - r.first) / r.step) <<< start

theorem CaseRun.testBit_bits (h : r.has n = true) (start : Nat) :
    (r.bits start).testBit (start + (n - r.first)) = true := by
  obtain ⟨⟨-, hhi⟩, hstep⟩ := CaseRun.has_iff.1 h
  rw [bits, Nat.testBit_shiftLeft, Nat.add_sub_cancel_left, decide_eq_true (Nat.le_add_right _ _),
    Bool.true_and, ← Nat.mul_div_cancel' hstep]
  exact testBit_strided (Nat.div_le_div_right (Nat.sub_le_sub_right hhi r.first))

theorem testBit_one_shiftLeft : (1 <<< n).testBit n = true := by
  rw [Nat.one_shiftLeft, Nat.testBit_two_pow_self]

def allBits (f : α → Nat) (xs : List α) : Nat := xs.foldr (fun x bits => f x ||| bits) 0

theorem testBit_allBits {f : α → Nat} {xs : List α} {x : α} (hx : x ∈ xs)
    (h : (f x).testBit n = true) : (allBits f xs).testBit n = true := by
  induction xs with
  | nil => cases hx
  | cons y ys ih =>
    rw [allBits, List.foldr_cons, Nat.testBit_or, Bool.or_eq_true]
    rcases List.mem_cons.1 hx with rfl | hx
    · exact .inl h
    · exact .inr (ih hx)

/-- Numbers without a common bit. This is decided at once where a search through the code points
would take long. -/
theorem testBit_apart {k l : Nat} (h : k &&& l = 0) (hk : k.testBit n = true) :
    l.testBit n = false := by
  rw [Bool.eq_false_iff]
  intro hl
  have hboth : (k &&& l).testBit n = true := by rw [Nat.testBit_and, hk, hl]; rfl
  rw [h, Nat.zero_testBit] at hboth
  cases hboth

def movedBits : List CaseRun → Nat := allBits fun r => r.bits r.first

def landedBits : List CaseRun → Nat := allBits fun r => r.bits (r.first + r.shift).toNat

theorem shiftBy_eq_self (h : (movedBits runs).testBit c.toNat = false) : shiftBy runs c = c := by
  rcases shiftBy_eq runs c with he | ⟨r, hr, hc, -⟩
  · exact he
  · have hbit := CaseRun.testBit_bits hc r.first
    rw [Nat.add_sub_cancel' (CaseRun.has_iff.1 hc).1.1] at hbit
    exact absurd (testBit_allBits hr hbit) (Bool.eq_false_iff.1 h)

theorem Lands.testBit_landedBits (h : Lands runs) (hc : shiftBy runs c ≠ c) :
    (landedBits runs).testBit (shiftBy runs c).toNat = true := by
  obtain ⟨r, hr, hrun, he⟩ := (h.moved c).resolve_left hc
  have hfirst := (CaseRun.has_iff.1 hrun).1.1
  have hstart := (h r hr).1
  have hland : (shiftBy runs c).toNat = (r.first + r.shift).toNat + (c.toNat - r.first) := by omega
  exact testBit_allBits hr (hland ▸ CaseRun.testBit_bits hrun _)

/-! ### Forms -/

def loweredBits : Nat := 1 <<< 0x130 ||| movedBits lowerTable

/-- The parts of the dotted capital, and the final sigma. -/
def specialLower : List Rune := ['i', '\u0307', '\u03c2']

def loweringBits : Nat :=
  allBits (fun c => 1 <<< c.toNat) specialLower ||| landedBits lowerTable

def raisedBits : Nat := allBits (fun e => 1 <<< e.1) upperExpansions ||| movedBits upperTable

def raisingBits : Nat :=
  allBits (fun e => allBits (fun c => 1 <<< c.toNat) e.2) upperExpansions ||| landedBits upperTable

theorem caseBits_apart :
    loweringBits &&& loweredBits = 0 ∧ raisingBits &&& raisedBits = 0 := by
  decide +kernel

/-! ### Lower case -/

theorem lowerChar_eq_self (h : loweredBits.testBit c.toNat = false) : lowerChar c = [c] := by
  rw [loweredBits, Nat.testBit_or, Bool.or_eq_false_iff] at h
  rw [lowerChar_eq_shiftBy, shiftBy_eq_self h.2]
  rintro rfl
  exact absurd testBit_one_shiftLeft (Bool.eq_false_iff.1 h.1)

theorem lowerChar_of_special (h : c ∈ specialLower) : lowerChar c = [c] := by
  refine lowerChar_eq_self (testBit_apart caseBits_apart.1 ?_)
  rw [loweringBits, Nat.testBit_or, testBit_allBits h testBit_one_shiftLeft, Bool.true_or]

theorem lowerChar_of_mem_lowerChar (hx : x ∈ lowerChar c) : lowerChar x = [x] := by
  by_cases hdotted : c = '\u0130'
  · have hparts : lowerChar ('\u0130') ⊆ specialLower := by decide
    exact lowerChar_of_special (hparts (hdotted ▸ hx))
  · have hc := lowerChar_eq_shiftBy hdotted
    rw [hc, List.mem_singleton] at hx
    by_cases hself : shiftBy lowerTable c = c
    · rw [hx, hself, hc, hself]
    · refine lowerChar_eq_self (testBit_apart caseBits_apart.1 ?_)
      rw [hx, loweringBits, Nat.testBit_or, caseTables_land.1.testBit_landedBits hself,
        Bool.or_true]

theorem mem_lowerAfter {b : Bool} (h : x ∈ lowerAfter b s) :
    ∃ c ∈ s, ∃ b' rest, x ∈ lowerHere b' c rest := by
  induction s generalizing b with
  | nil => cases h
  | cons c rest ih =>
    obtain ⟨b', hb⟩ := lowerAfter_cons b c rest
    rw [hb] at h
    rcases List.mem_append.1 h with h | h
    · exact ⟨c, List.mem_cons_self, b, rest, h⟩
    · obtain ⟨d, hd, hx⟩ := ih h
      exact ⟨d, List.mem_cons_of_mem c hd, hx⟩

/-- No character of a text in lower case has another lower-case form, wherever it stands. -/
theorem lowerChar_of_mem_lower (hx : x ∈ lower s) : lowerChar x = [x] := by
  obtain ⟨c, -, b, rest, hx⟩ := mem_lowerAfter hx
  rcases lowerHere_cases b c rest with he | ⟨-, he⟩
  · exact lowerChar_of_mem_lowerChar (he ▸ hx)
  · rw [he, List.mem_singleton] at hx
    rw [hx]
    exact lowerChar_of_special (by decide)

/-! ### Upper case -/

theorem upperChar_eq_self (h : raisedBits.testBit c.toNat = false) : upperChar c = [c] := by
  rw [raisedBits, Nat.testBit_or, Bool.or_eq_false_iff] at h
  rw [upperChar_eq_shiftBy, shiftBy_eq_self h.2]
  refine .inr (List.lookup_eq_none_iff.2 fun e he => bne_iff_ne.2 fun heq => ?_)
  refine absurd (testBit_allBits he ?_) (Bool.eq_false_iff.1 h.1)
  rw [heq, testBit_one_shiftLeft]

theorem upperChar_of_mem_upperChar (hx : x ∈ upperChar c) : upperChar x = [x] := by
  by_cases hsingle : c.toNat < 128 ∨ upperExpansions.lookup c.toNat = none
  · have hc := upperChar_eq_shiftBy hsingle
    rw [hc, List.mem_singleton] at hx
    by_cases hself : shiftBy upperTable c = c
    · rw [hx, hself, hc, hself]
    · refine upperChar_eq_self (testBit_apart caseBits_apart.2 ?_)
      rw [hx, raisingBits, Nat.testBit_or, caseTables_land.2.testBit_landedBits hself, Bool.or_true]
  · rw [not_or] at hsingle
    obtain ⟨letters, hl⟩ := Option.ne_none_iff_exists'.1 hsingle.2
    rw [upperChar_eq_letters hsingle.1 hl] at hx
    refine upperChar_eq_self (testBit_apart caseBits_apart.2 ?_)
    rw [raisingBits, Nat.testBit_or, Bool.or_eq_true]
    exact .inl (testBit_allBits (mem_of_lookup hl) (testBit_allBits hx testBit_one_shiftLeft))

end ApiPrep.Text
