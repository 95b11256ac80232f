import ApiPrep.Proofs.Value.Entries
import ApiPrep.Value.Spelled
import Mathlib.Data.List.Nodup

namespace ApiPrep.Json

variable {v : Value} {values : List Value} {fields : List (Text × Value)} {depth : Nat}

def textEntries (fields : List (Text × Value)) : Entries :=
  fields.map fun field => (.text field.1, field.2)

theorem textEntries_injective : Function.Injective textEntries := by
  apply List.map_injective_iff.2
  rintro ⟨k, v⟩ ⟨l, w⟩ h
  cases h
  rfl

theorem put_textEntries {key : Text} (h : key ∉ fields.map Prod.fst) (v : Value) :
    Entries.put (textEntries fields) (.text key) v = textEntries (fields ++ [(key, v)]) := by
  induction fields with
  | nil => rfl
  | cons field rest ih =>
    obtain ⟨hne, hrest⟩ := not_or.1 (fun hmem => h (List.mem_cons.2 hmem))
    have hsame : ¬(Scalar.text field.1).same (.text key) = true := by
      rw [Scalar.same_text_iff, Scalar.text.injEq]
      exact Ne.symm hne
    change Entries.put ((.text field.1, field.2) :: textEntries rest) (.text key) v = _
    rw [Entries.put, if_neg hsame, ih hrest]
    rfl

theorem ofList_textEntries (h : (fields.map Prod.fst).Nodup) :
    Entries.ofList (textEntries fields) = textEntries fields := by
  have hfold (seen : List (Text × Value)) (hseen : ((seen ++ fields).map Prod.fst).Nodup) :
      (textEntries fields).foldl (fun entries pair => entries.put pair.1 pair.2)
        (textEntries seen) = textEntries (seen ++ fields) := by
    clear h
    induction fields generalizing seen with
    | nil => rw [List.append_nil]; rfl
    | cons field rest ih =>
      have hnew : field.1 ∉ seen.map Prod.fst := by
        rw [List.map_append, List.nodup_append] at hseen
        intro hmem
        exact hseen.2.2 _ hmem _ List.mem_cons_self rfl
      rw [← List.singleton_append, ← List.append_assoc] at hseen ⊢
      change List.foldl _ (Entries.put (textEntries seen) (.text field.1) field.2) _ = _
      rw [put_textEntries hnew]
      exact ih _ hseen
  exact hfold [] h

/-- A value that JSON can say exactly: no part of it is a fraction, a date or bytes, and the keys
of a mapping are distinct texts. -/
inductive Exact : Value → Prop
  | null : Exact .null
  | bool (b : Bool) : Exact (.bool b)
  | int (n : Int) : Exact (.int n)
  | text (s : Text) : Exact (.text s)
  | list {values : List Value} (each : ∀ v ∈ values, Exact v) : Exact (.list values)
  | map {fields : List (Text × Value)} (distinct : (fields.map Prod.fst).Nodup)
      (each : ∀ field ∈ fields, Exact field.2) : Exact (.map (textEntries fields))

/-- An exact value in which at most `depth` brackets are open at once and whole numbers are not
too long. -/
inductive Fits : (depth : Nat) → Value → Prop
  | null {depth : Nat} : Fits depth .null
  | bool {depth : Nat} (b : Bool) : Fits depth (.bool b)
  | int {depth : Nat} {n : Int}
      (short : (Nat.toDigits 10 n.natAbs).length ≤ Decimal.mostDigits) : Fits depth (.int n)
  | text {depth : Nat} (s : Text) : Fits depth (.text s)
  | list {depth : Nat} {values : List Value} (each : ∀ v ∈ values, Fits depth v) :
      Fits (depth + 1) (.list values)
  | map {depth : Nat} {fields : List (Text × Value)} (distinct : (fields.map Prod.fst).Nodup)
      (each : ∀ field ∈ fields, Fits depth field.2) : Fits (depth + 1) (.map (textEntries fields))

theorem Fits.exact (h : Fits depth v) : Exact v := by
  induction h with
  | null => exact .null
  | bool b => exact .bool b
  | @int _ n _ => exact .int n
  | text s => exact .text s
  | list _ ih => exact .list ih
  | map distinct _ ih => exact .map distinct ih

theorem Fits.mono (h : Fits depth v) {deeper : Nat} (hd : depth ≤ deeper) : Fits deeper v := by
  induction h generalizing deeper with
  | null => exact .null
  | bool b => exact .bool b
  | int short => exact .int short
  | text s => exact .text s
  | list _ ih =>
    obtain ⟨deeper, rfl⟩ := Nat.exists_eq_add_of_le' (Nat.one_le_of_lt hd)
    exact .list fun v hv => ih v hv (Nat.le_of_succ_le_succ hd)
  | map distinct _ ih =>
    obtain ⟨deeper, rfl⟩ := Nat.exists_eq_add_of_le' (Nat.one_le_of_lt hd)
    exact .map distinct fun field hfield => ih field hfield (Nat.le_of_succ_le_succ hd)

/-! ### What can be spelled out -/

theorem itemsObstacle_eq_findSome? {around : List Nat} :
    itemsObstacle around depth values = values.findSome? (·.obstacleWithin around depth) := by
  induction values with
  | nil => rfl
  | cons v rest ih =>
    rw [itemsObstacle, ih, List.findSome?_cons]
    cases v.obstacleWithin around depth <;> rfl

theorem entriesObstacle_eq_findSome? {around : List Nat} :
    entriesObstacle around depth (textEntries fields) =
      fields.findSome? (·.2.obstacleWithin around depth) := by
  induction fields with
  | nil => rfl
  | cons field rest ih =>
    have hkey : (Scalar.text field.1).obstacle? = none := rfl
    change entriesObstacle around depth ((.text field.1, field.2) :: textEntries rest) = _
    rw [entriesObstacle, hkey, Option.none_or, ih, List.findSome?_cons]
    cases field.2.obstacleWithin around depth <;> rfl

theorem obstacle?_int_eq_none_iff (n : Int) :
    (Scalar.int n).obstacle? = none ↔
      (Nat.toDigits 10 n.natAbs).length ≤ Decimal.mostDigits := by
  have hpos : 0 < Decimal.mostDigits := by decide
  simp only [Scalar.obstacle?, ite_eq_right_iff, reduceCtorEq, imp_false]
  -- The greatest number of digits is left open, lest the power of ten be computed.
  generalize Decimal.mostDigits = most at hpos ⊢
  rw [Nat.length_toDigits_le_iff (by decide) hpos]
  exact Nat.not_le

/-- An exact value fits iff nothing prevents it from being spelled out. -/
theorem Exact.fits_iff (h : Exact v) {around : List Nat} :
    Fits depth v ↔ v.obstacleWithin around depth = none := by
  induction h generalizing depth with
  | null => exact iff_of_true .null rfl
  | bool b => exact iff_of_true (.bool b) rfl
  | int n =>
    rw [Value.obstacleWithin, obstacle?_int_eq_none_iff]
    constructor
    · intro hfits
      cases hfits with
      | int short => exact short
    · exact .int
  | text s => exact iff_of_true (.text s) rfl
  | @list values _ ih =>
    cases depth with
    | zero => exact iff_of_false nofun nofun
    | succ depth =>
      rw [Value.obstacleWithin, Value.opening, itemsObstacle_eq_findSome?,
        List.findSome?_eq_none_iff]
      constructor
      · intro hfits v hv
        cases hfits with
        | list each => exact (ih v hv).1 (each v hv)
      · intro hob
        exact .list fun v hv => (ih v hv).2 (hob v hv)
  | @map fields distinct _ ih =>
    cases depth with
    | zero => exact iff_of_false nofun nofun
    | succ depth =>
      rw [Value.obstacleWithin, Value.opening, entriesObstacle_eq_findSome?,
        List.findSome?_eq_none_iff]
      constructor
      · intro hfits field hfield
        generalize he : textEntries fields = entries at hfits
        cases hfits with
        | map _ each =>
          obtain rfl := textEntries_injective he
          exact (ih field hfield).1 (each field hfield)
      · intro hob
        exact .map distinct fun field hfield => (ih field hfield).2 (hob field hfield)

/-- An exact value is too deep or holds too long a number if anything prevents it from being
spelled out. -/
theorem Exact.obstacle_cases (h : Exact v) {around : List Nat} {b : Breakdown}
    (hb : v.obstacleWithin around depth = some b) : b = .tooDeep ∨ b = .tooManyDigits none := by
  induction h generalizing depth with
  | null | bool | text => cases hb
  | int n =>
    rw [Value.obstacleWithin, Scalar.obstacle?] at hb
    split at hb
    · exact .inr (Option.some.inj hb).symm
    · cases hb
  | list _ ih =>
    cases depth with
    | zero => exact .inl (Option.some.inj hb).symm
    | succ depth =>
      rw [Value.obstacleWithin, Value.opening, itemsObstacle_eq_findSome?] at hb
      obtain ⟨v, hv, hb⟩ := List.exists_of_findSome?_eq_some hb
      exact ih v hv hb
  | map _ _ ih =>
    cases depth with
    | zero => exact .inl (Option.some.inj hb).symm
    | succ depth =>
      rw [Value.obstacleWithin, Value.opening, entriesObstacle_eq_findSome?] at hb
      obtain ⟨field, hfield, hb⟩ := List.exists_of_findSome?_eq_some hb
      exact ih field hfield hb

end ApiPrep.Json
