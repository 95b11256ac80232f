import ApiPrep.Text.Case.Lower
import ApiPrep.Text.Case.Upper

namespace ApiPrep.Text

variable {runs : List CaseRun} {ranges : Ranges} {c : Rune}

def Avoids (runs : List CaseRun) (ranges : Ranges) : Prop :=
  ∀ r ∈ runs, ∀ q ∈ ranges, r.last + r.shift < q.1 ∨ q.2 < r.first + r.shift

/-- Whether the ranges are avoided, told by natural numbers, which are compared at once. -/
def apart (runs : List CaseRun) (ranges : Ranges) : Bool :=
  runs.all fun r => ranges.all fun q =>
    Nat.blt (r.last + r.shift).toNat q.1 || Nat.blt q.2 (r.first + r.shift).toNat

theorem avoids_of_apart (h : apart runs ranges = true) : Avoids runs ranges := by
  intro r hr q hq
  have hout := List.all_eq_true.1 (List.all_eq_true.1 h r hr) q hq
  rw [Bool.or_eq_true, Nat.blt_eq, Nat.blt_eq] at hout
  omega

theorem CaseRun.has_iff {r : CaseRun} {n : Nat} :
    r.has n = true ↔ (r.first ≤ n ∧ n ≤ r.last) ∧ r.step ∣ n - r.first := by
  rw [has, Bool.and_eq_true, Bool.and_eq_true, decide_eq_true_eq, decide_eq_true_eq, beq_iff_eq,
    Nat.dvd_iff_mod_eq_zero]

theorem shiftBy_eq (runs : List CaseRun) (c : Rune) :
    shiftBy runs c = c ∨ ∃ r ∈ runs, r.has c.toNat = true ∧
      shiftBy runs c = Rune.ofNat (c.toNat + r.shift).toNat := by
  induction runs with
  | nil => exact .inl rfl
  | cons r rest ih =>
    rw [shiftBy]
    split
    · next hr => exact .inr ⟨r, List.mem_cons_self, hr, rfl⟩
    · rcases ih with h | ⟨q, hq, hc⟩
      · exact .inl h
      · exact .inr ⟨q, List.mem_cons_of_mem r hq, hc⟩

def Lands (runs : List CaseRun) : Prop :=
  ∀ r ∈ runs, 0 ≤ r.first + r.shift ∧
    (r.last + r.shift < 0xd800 ∨ 0xdfff < r.first + r.shift ∧ r.last + r.shift < 0x110000)

instance (runs : List CaseRun) : Decidable (Lands runs) :=
  inferInstanceAs (Decidable (∀ r ∈ runs, _))

theorem Lands.moved (h : Lands runs) (c : Rune) :
    shiftBy runs c = c ∨ ∃ r ∈ runs, r.has c.toNat = true ∧
      ((shiftBy runs c).toNat : Int) = c.toNat + r.shift := by
  rcases shiftBy_eq runs c with he | ⟨r, hr, hc, he⟩
  · exact .inl he
  · have hland := h r hr
    have hb := (CaseRun.has_iff.1 hc).1
    refine .inr ⟨r, hr, hc, ?_⟩
    rw [he, Rune.toNat_ofNat (by omega)]
    omega

theorem Lands.toNat_shiftBy (h : Lands runs) (c : Rune) :
    shiftBy runs c = c ∨ ∃ r ∈ runs, (r.first ≤ c.toNat ∧ c.toNat ≤ r.last) ∧
      ((shiftBy runs c).toNat : Int) = c.toNat + r.shift := by
  refine (h.moved c).imp_right ?_
  rintro ⟨r, hr, hc, he⟩
  exact ⟨r, hr, (CaseRun.has_iff.1 hc).1, he⟩

theorem Avoids.shiftBy_eq_self (h : Avoids runs ranges) (hl : Lands runs)
    (hc : ranges.has (shiftBy runs c).toNat = true) : shiftBy runs c = c := by
  rcases hl.toNat_shiftBy c with he | ⟨r, hr, hb, he⟩
  · exact he
  · obtain ⟨q, hq, hlo, hhi⟩ := Ranges.has_iff.1 hc
    have hout := h r hr q hq
    omega

/-! ### Single characters -/

theorem forall_ascii {P : Rune → Prop} (h : ∀ n < 128, P (Rune.ofNat n)) :
    ∀ c : Rune, c.toNat < 128 → P c := by
  intro c hc
  have hn := h c.toNat hc
  rwa [Rune.ofNat_toNat] at hn

theorem lowerChar_ne_nil (c : Rune) : lowerChar c ≠ [] := by
  simp only [lowerChar]
  split
  · exact List.cons_ne_nil _ _
  · split <;> exact List.cons_ne_nil _ _

theorem mem_of_lookup {table : List (Nat × List Rune)} {n : Nat} {letters : List Rune}
    (h : table.lookup n = some letters) : (n, letters) ∈ table := by
  obtain ⟨before, after, rfl, _⟩ := List.lookup_eq_some_iff.1 h
  exact List.mem_append_right before List.mem_cons_self

theorem upperExpansions_ne_nil : ∀ e ∈ upperExpansions, e.2 ≠ [] := by decide +kernel

theorem upperChar_ne_nil (c : Rune) : upperChar c ≠ [] := by
  simp only [upperChar]
  split
  · exact List.cons_ne_nil _ _
  · split
    · next letters hl =>
      exact upperExpansions_ne_nil _ (mem_of_lookup hl)
    · exact List.cons_ne_nil _ _

/-! ### Texts -/

/-- The lower-case form of a character in a text; `rest` follows it. -/
def lowerHere (casedBefore : Bool) (c : Rune) (rest : List Rune) : List Rune :=
  if c = '\u03a3' then [if casedBefore && !casedNext rest then '\u03c2' else '\u03c3']
  else lowerChar c

theorem lowerAfter_cons (b : Bool) (c : Rune) (rest : List Rune) :
    ∃ b', lowerAfter b (c :: rest) = lowerHere b c rest ++ lowerAfter b' rest := ⟨_, rfl⟩

theorem lowerChar_sigma : lowerChar ('\u03a3') = [.char '\u03c3'] := by decide +kernel

theorem lowerHere_false (c : Rune) (rest : List Rune) : lowerHere false c rest = lowerChar c := by
  rw [lowerHere]
  split
  · next h => rw [h, lowerChar_sigma]; rfl
  · rfl

/-- The only character whose lower-case form depends on its place has two, neither of which is
itself. -/
theorem lowerHere_cases (b : Bool) (c : Rune) (rest : List Rune) :
    lowerHere b c rest = lowerChar c ∨
      c = .char '\u03a3' ∧ lowerHere b c rest = [.char '\u03c2'] := by
  rw [lowerHere]
  split
  · next h =>
    split
    · exact .inr ⟨h, rfl⟩
    · exact .inl (by rw [h, lowerChar_sigma])
  · exact .inl rfl

theorem lowerHere_eq_self_iff (b : Bool) (rest : List Rune) :
    lowerHere b c rest = [c] ↔ lowerChar c = [c] := by
  rcases lowerHere_cases b c rest with h | ⟨rfl, h⟩
  · rw [h]
  · rw [h, lowerChar_sigma]
    decide

theorem lowerHere_ne_nil (b : Bool) (c : Rune) (rest : List Rune) : lowerHere b c rest ≠ [] := by
  rcases lowerHere_cases b c rest with h | ⟨_, h⟩ <;> rw [h]
  · exact lowerChar_ne_nil c
  · exact List.cons_ne_nil _ _

theorem lowerAfter_eq_self {s : List Rune} (h : ∀ x ∈ s, lowerChar x = [x]) (b : Bool) :
    lowerAfter b s = s := by
  induction s generalizing b with
  | nil => rfl
  | cons c rest ih =>
    obtain ⟨hc, hrest⟩ := List.forall_mem_cons.1 h
    obtain ⟨b', hb⟩ := lowerAfter_cons b c rest
    rw [hb, (lowerHere_eq_self_iff b rest).2 hc, ih hrest]
    rfl

/-! ### Tables of letters -/

def lowerTable : List CaseRun := ⟨65, 90, 1, 32⟩ :: lowerRuns

def upperTable : List CaseRun := ⟨97, 122, 1, -32⟩ :: upperRuns

theorem caseRuns_land : Lands lowerRuns ∧ Lands upperRuns := by decide +kernel

theorem caseTables_land : Lands lowerTable ∧ Lands upperTable :=
  ⟨List.forall_mem_cons.2 ⟨by decide, caseRuns_land.1⟩,
    List.forall_mem_cons.2 ⟨by decide, caseRuns_land.2⟩⟩

theorem caseRuns_beyond_ascii : ∀ r ∈ lowerRuns ++ upperRuns, 128 ≤ r.first := by decide +kernel

theorem shiftBy_ascii (h : runs ⊆ lowerRuns ++ upperRuns) (hc : c.toNat < 128) :
    shiftBy runs c = c := by
  rcases shiftBy_eq runs c with he | ⟨r, hr, hrun, -⟩
  · exact he
  · have hfirst := caseRuns_beyond_ascii r (h hr)
    have hlo := (CaseRun.has_iff.1 hrun).1.1
    omega

theorem toCase_eq_shiftBy (hc : c.toNat < 128) :
    c.toLower = shiftBy lowerTable c ∧ c.toUpper = shiftBy upperTable c := by
  have hascii : ∀ c : Rune, c.toNat < 128 → c.toLower = shiftBy [⟨65, 90, 1, 32⟩] c ∧
      c.toUpper = shiftBy [⟨97, 122, 1, -32⟩] c := forall_ascii (by decide +kernel)
  rw [(hascii c hc).1, (hascii c hc).2, lowerTable, upperTable]
  simp only [shiftBy, shiftBy_ascii (List.subset_append_left _ _) hc,
    shiftBy_ascii (List.subset_append_right _ _) hc, and_self]

theorem shiftBy_cons_beyond {r : CaseRun} (hr : r.last < 128) (hc : ¬c.toNat < 128) :
    shiftBy (r :: runs) c = shiftBy runs c := by
  rw [shiftBy, if_neg]
  intro hrun
  exact hc (Nat.lt_of_le_of_lt (CaseRun.has_iff.1 hrun).1.2 hr)

theorem lowerChar_eq_shiftBy (h : c ≠ '\u0130') : lowerChar c = [shiftBy lowerTable c] := by
  rw [lowerChar, if_neg h]
  split
  · next hc => rw [(toCase_eq_shiftBy hc).1]
  · next hc => rw [lowerTable, shiftBy_cons_beyond (by decide) hc]

theorem upperChar_eq_shiftBy (h : c.toNat < 128 ∨ upperExpansions.lookup c.toNat = none) :
    upperChar c = [shiftBy upperTable c] := by
  rw [upperChar]
  split
  · next hc => rw [(toCase_eq_shiftBy hc).2]
  · next hc => rw [h.resolve_left hc, upperTable, shiftBy_cons_beyond (by decide) hc]

theorem upperChar_eq_letters {letters : List Rune} (hc : ¬c.toNat < 128)
    (h : upperExpansions.lookup c.toNat = some letters) : upperChar c = letters := by
  rw [upperChar, if_neg hc, h]

/-! ### Ranges without letters -/

def Ranges.Spare (ranges : Ranges) (s : List Rune) : Prop := ∀ x ∈ s, ranges.has x.toNat = false

-- Not by inference, which may settle for a search through all characters.
instance (ranges : Ranges) (s : List Rune) : Decidable (ranges.Spare s) := List.decidableBAll _ s

/-- Ranges that no case map leads into. -/
structure Uncased (ranges : Ranges) : Prop where
  lower : Avoids lowerRuns ranges
  upper : Avoids upperRuns ranges
  ascii : ∀ n < 128, ranges.has n = false →
    ranges.has (Rune.ofNat n).toLower.toNat = false ∧
      ranges.has (Rune.ofNat n).toUpper.toNat = false
  single : ranges.Spare ['i', '\u0307', '\u03c2']
  expanded : ∀ e ∈ upperExpansions, ranges.Spare e.2

theorem Avoids.shiftBy_outside (h : Avoids runs ranges) (hl : Lands runs)
    (hc : ranges.has c.toNat = false) : ranges.has (shiftBy runs c).toNat = false := by
  rw [Bool.eq_false_iff]
  intro hx
  rw [h.shiftBy_eq_self hl hx, hc] at hx
  cases hx

theorem Uncased.of_apart (hlower : apart lowerTable ranges = true)
    (hupper : apart upperTable ranges = true) (single : ranges.Spare ['i', '\u0307', '\u03c2'])
    (expanded : ∀ e ∈ upperExpansions, ranges.Spare e.2) : Uncased ranges where
  lower := fun r hr => avoids_of_apart hlower r (List.mem_cons_of_mem _ hr)
  upper := fun r hr => avoids_of_apart hupper r (List.mem_cons_of_mem _ hr)
  ascii := by
    intro n hn hout
    have hc : (Rune.ofNat n).toNat = n := Rune.toNat_ofNat (by omega)
    have hcase := toCase_eq_shiftBy (hc.symm ▸ hn : (Rune.ofNat n).toNat < 128)
    rw [← hc] at hout
    rw [hcase.1, hcase.2]
    exact ⟨(avoids_of_apart hlower).shiftBy_outside caseTables_land.1 hout,
      (avoids_of_apart hupper).shiftBy_outside caseTables_land.2 hout⟩
  single := single
  expanded := expanded

theorem Uncased.toCase_ascii (h : Uncased ranges) (hc : ranges.has c.toNat = false)
    (hascii : c.toNat < 128) :
    ranges.has c.toLower.toNat = false ∧ ranges.has c.toUpper.toNat = false := by
  have hcase := h.ascii c.toNat hascii hc
  rwa [Rune.ofNat_toNat] at hcase

theorem Uncased.lowerChar (h : Uncased ranges) (hc : ranges.has c.toNat = false) :
    ranges.Spare (lowerChar c) := by
  rw [Text.lowerChar]
  split
  · next hascii => exact List.forall_mem_singleton.2 (h.toCase_ascii hc hascii).1
  · split
    · intro x hx
      exact h.single x (List.mem_append_left [Rune.char '\u03c2'] hx)
    · exact List.forall_mem_singleton.2 (h.lower.shiftBy_outside caseRuns_land.1 hc)

theorem Uncased.upperChar (h : Uncased ranges) (hc : ranges.has c.toNat = false) :
    ranges.Spare (upperChar c) := by
  rw [Text.upperChar]
  split
  · next hascii => exact List.forall_mem_singleton.2 (h.toCase_ascii hc hascii).2
  · split
    · next letters hl => exact h.expanded _ (mem_of_lookup hl)
    · exact List.forall_mem_singleton.2 (h.upper.shiftBy_outside caseRuns_land.2 hc)

theorem Uncased.lowerHere (h : Uncased ranges) (b : Bool) (rest : List Rune)
    (hc : ranges.has c.toNat = false) : ranges.Spare (lowerHere b c rest) := by
  rcases lowerHere_cases b c rest with he | ⟨_, he⟩ <;> rw [he]
  · exact h.lowerChar hc
  · exact List.forall_mem_singleton.2 (h.single _ (by decide))

end ApiPrep.Text
