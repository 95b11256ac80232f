import ApiPrep.Proofs.Outcome
import ApiPrep.Value.Spelled

namespace ApiPrep

variable {v : Value} {s : Text}

/-! ### Spelling out -/

namespace Attempt

theorem value_spellable (v : Value) :
    (spellable v).run.value = match v.obstacle? with
      | some b => .error (.broken b)
      | none => .ok () := by
  rw [spellable]
  cases v.obstacle? <;> rfl

theorem value_spelled (v : Value) :
    (spelled v).run.value = match v.obstacle? with
      | some b => .error (.broken b)
      | none => .ok v.plain := by
  rw [spelled, Traced.value_run_bind, value_spellable]
  cases v.obstacle? <;> rfl

theorem spelled_eq_ok_iff : (spelled v).run.value = .ok s ↔ v.obstacle? = none ∧ v.plain = s := by
  rw [value_spelled]
  cases v.obstacle? with
  | none => exact ⟨fun h => ⟨rfl, Except.ok.inj h⟩, fun h => congrArg Except.ok h.2⟩
  | some b => exact iff_of_false nofun nofun

theorem spellable_of_none (h : v.obstacle? = none) : spellable v = pure () := by
  rw [spellable, h]

theorem spelled_of_none (h : v.obstacle? = none) : spelled v = pure v.plain := by
  rw [spelled, spellable_of_none h, pure_bind]

end Attempt

/-! ### Texts that are not blank -/

theorem ofList_ne_empty {l : List Rune} (h : l ≠ []) : Text.ofList l ≠ "" := fun he =>
  h (Text.toList_eq_nil_iff.2 he)

theorem not_blank_of_mem {l : List Rune} {c : Rune} (hmem : c ∈ l) (hc : Text.isBlank c = false) :
    Text.blank l = false :=
  List.all_eq_false.2 ⟨c, hmem, Bool.eq_false_iff.1 hc⟩

theorem not_blank_ofList {l : List Rune} {c : Rune} (hmem : c ∈ l) (hc : Text.isBlank c = false) :
    Text.blank (Text.ofList l).toList = false := by
  rw [Text.toList_ofList]
  exact not_blank_of_mem hmem hc

theorem not_blank_append_right (s : Text) {t : Text} (h : Text.blank t.toList = false) :
    Text.blank (s ++ t).toList = false := by
  rw [Text.blank, Text.toList_append, List.all_append, Bool.and_comm]
  exact Bool.and_eq_false_imp.2 fun ht => absurd ht (Bool.eq_false_iff.1 h)

theorem isBlank_of_isDigit {c : Rune} (h : c.isDigit = true) : Text.isBlank c = false := by
  obtain ⟨hlo, hhi⟩ := Rune.isDigit_iff.1 h
  rw [← Bool.not_eq_true, Text.isBlank, Text.Ranges.has_iff]
  rintro ⟨r, hr, hbounds⟩
  have hapart : ∀ r ∈ Text.blankRanges, r.2 ≤ 32 ∨ 133 ≤ r.1 := by decide
  have hr := hapart r hr
  omega

theorem not_blank_ofString {s : String} {c : Char} (hmem : c ∈ s.toList)
    (hc : Text.isBlank c = false) : Text.blank (Text.ofString s).toList = false :=
  not_blank_of_mem (List.mem_map_of_mem hmem) hc

theorem Int.not_blank_toString (n : Int) :
    Text.blank (Text.ofString (toString n)).toList = false := by
  cases n with
  | ofNat n =>
    obtain ⟨c, hc⟩ := List.exists_mem_of_ne_nil _ (Nat.toDigits_ne_nil (n := n) (b := 10))
    have hrepr : c ∈ n.repr.toList := by rwa [Nat.repr_eq_ofList_toDigits, String.toList_ofList]
    have hdigit := Nat.isDigit_of_mem_toDigits (by decide) (by decide) hc
    exact not_blank_ofString hrepr (isBlank_of_isDigit (Rune.isDigit_char hdigit))
  | negSucc n =>
    have hminus : '-' ∈ ("-" ++ (n + 1).repr).toList := by
      rw [String.toList_append]
      exact List.mem_append_left _ List.mem_cons_self
    exact not_blank_ofString hminus (by decide)

theorem Date.minus_mem_iso (d : Date) : '-' ∈ d.iso.toList := by
  simp [Date.iso, toString]

theorem Moment.minus_mem_iso (sep : String) (t : Moment) : '-' ∈ (t.iso sep).toList := by
  simp [Moment.iso, t.date.minus_mem_iso]

namespace Decimal

theorem point_mem_positional (digits : List Char) (point : Int) :
    '.' ∈ positional digits point := by
  rw [positional]
  split
  · exact List.mem_cons_of_mem _ List.mem_cons_self
  split
  · exact List.mem_append_right _ List.mem_cons_self
  · exact List.mem_append_right _ List.mem_cons_self

theorem exponent_mem_scientific (width : Nat) (digits : List Char) (point : Int) :
    'e' ∈ scientific width digits point := by
  unfold scientific
  refine List.mem_append_left _ (List.mem_append_left _ (List.mem_append_right _ ?_))
  exact List.mem_cons_self

theorem not_blank_write {layout : Layout}
    (hi : Text.blank (Text.ofString layout.infinity).toList = false)
    (hu : Text.blank (Text.ofString layout.undefined).toList = false) (x : Float) :
    Text.blank (Text.ofString (layout.write x)).toList = false := by
  rw [Layout.write]
  split
  · exact hu
  · rw [Text.toList_ofString, String.runes, String.toList_append, List.map_append]
    exact not_blank_append_right (Text.ofString _) hi
  · next negative _ _ _ =>
    have hif {p : Prop} [Decidable p] {a b : List Char} (ha : Text.blank (a.map .char) = false)
        (hb : Text.blank (b.map .char) = false) :
        Text.blank ((if p then a else b).map .char) = false := by
      split <;> assumption
    rw [Text.toList_ofString, String.runes, String.toList_ofList]
    refine hif (not_blank_of_mem List.mem_cons_self (by decide)) (hif ?_ ?_)
    · exact not_blank_of_mem (List.mem_map_of_mem (point_mem_positional _ _)) (by decide)
    · exact not_blank_of_mem (List.mem_map_of_mem (exponent_mem_scientific _ _ _)) (by decide)

end Decimal

theorem Scalar.not_blank_shown (s : Scalar) : Text.blank s.shown.toList = false := by
  cases s with
  | null => decide
  | bool b => cases b <;> decide
  | int n => exact Int.not_blank_toString n
  | float x => exact Decimal.not_blank_write (by decide) (by decide) x
  | text s =>
    refine not_blank_ofList List.mem_cons_self ?_
    rw [Text.quoteFor]
    split <;> decide
  | date d =>
    have hclosing : ')' ∈ (s!"datetime.date({d.year}, {d.month}, {d.day})").toList := by
      simp [toString]
    exact not_blank_ofString hclosing (by decide)
  | moment t =>
    rw [shown, Moment.shown]
    exact not_blank_append_right _ (by decide)
  | bytes content => exact not_blank_ofList List.mem_cons_self (by decide)

theorem Value.not_blank_ellipsis (v : Value) : Text.blank v.ellipsis.toList = false := by
  unfold ellipsis
  split <;> decide

theorem not_blank_lookup {around : List (Nat × Text)}
    (h : ∀ p ∈ around, Text.blank p.2.toList = false) {mark : Nat} {ellipsis : Text}
    (hl : around.lookup mark = some ellipsis) : Text.blank ellipsis.toList = false := by
  obtain ⟨before, after, rfl, _⟩ := List.lookup_eq_some_iff.1 hl
  exact h (mark, ellipsis) (List.mem_append_right before List.mem_cons_self)

theorem Value.not_blank_shownWithin {around : List (Nat × Text)}
    (h : ∀ p ∈ around, Text.blank p.2.toList = false) :
    (v : Value) → Text.blank (v.shownWithin around).toList = false
  | .scalar s => s.not_blank_shown
  | .list _ => not_blank_append_right _ (by decide)
  | .map _ => not_blank_append_right _ (by decide)
  | .set [] => by
    rw [shownWithin]
    decide
  | .set (_ :: _) => not_blank_append_right _ (by decide)
  | .pair _ _ => not_blank_append_right _ (by decide)
  | .marked mark v => by
    rw [shownWithin]
    split
    · next hl => exact not_blank_lookup h hl
    · refine not_blank_shownWithin (fun p hp => ?_) v
      rcases List.mem_cons.1 hp with rfl | hp
      · exact v.not_blank_ellipsis
      · exact h p hp
  | .again mark => by
    rw [shownWithin]
    cases hl : around.lookup mark with
    | none => decide
    | some ellipsis => exact not_blank_lookup h hl

theorem Value.blank_plain_iff :
    Text.blank v.plain.toList = true ↔ ∃ s, v = .text s ∧ Text.blank s.toList = true := by
  constructor
  · intro h
    unfold plain at h
    split at h
    · next s => exact ⟨s, rfl, h⟩
    · next d =>
      exact absurd h (Bool.eq_false_iff.1 (not_blank_ofString d.minus_mem_iso (by decide)))
    · next t =>
      exact absurd h (Bool.eq_false_iff.1 (not_blank_ofString (t.minus_mem_iso " ") (by decide)))
    · have hshown := not_blank_shownWithin (fun _ hp => absurd hp List.not_mem_nil) v
      exact absurd h (Bool.eq_false_iff.1 hshown)
  · rintro ⟨s, rfl, h⟩
    exact h

theorem Value.plain_eq_empty_iff : v.plain = "" ↔ v = .text "" := by
  constructor
  · intro h
    obtain ⟨s, rfl, -⟩ := blank_plain_iff.1 (by rw [h]; rfl)
    rw [← h]
    rfl
  · rintro rfl
    rfl

end ApiPrep
