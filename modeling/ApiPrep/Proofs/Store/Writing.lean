import ApiPrep.Proofs.Text.Utf8
import ApiPrep.Store
import Mathlib.Data.List.Basic

namespace ApiPrep

def Text.lone? (s : Text) : Option Breakdown :=
  match s.bytes with
  | .ok _ => none
  | .error l => some (.unencodable l)

theorem Text.lone?_of_isWhole {s : Text} (h : s.isWhole = true) : s.lone? = none := by
  rw [lone?, bytes_of_isWhole h]

theorem Text.exists_lone {s : Text} (h : s.isWhole = false) :
    ∃ l, s.bytes = .error l ∧ s.lone? = some (.unencodable l) := by
  cases hbytes : s.bytes with
  | ok bytes => exact absurd (isWhole_iff_bytes.2 ⟨bytes, hbytes⟩) (Bool.eq_false_iff.1 h)
  | error l => exact ⟨l, rfl, by rw [lone?, hbytes]⟩

theorem Text.lone?_append_line (s : Text) : (s ++ "\n").lone? = s.lone? := by
  have hline : (s ++ "\n").bytes = s.bytes.map (· ++ String.utf8EncodeChar '\n') :=
    s.bytes_append_char '\n'
  rw [lone?, lone?, hline]
  cases s.bytes <;> rfl

namespace Store

open Outcome

variable {s : Store} {names other start ends steps workDir : List Name} {path text : Text}
  {e : Entry} {bytes : List UInt8}

theorem get?_put_self (h : names ≠ []) (e : Entry) : (s.put names e).get? names = some e := by
  have hgiven : names.isEmpty = false := List.isEmpty_eq_false_iff.2 h
  rw [get?, hgiven, put, List.lookup_cons_self]
  rfl

theorem lookup_filter_ne {entries : List (List Name × Entry)} (h : other ≠ names) :
    (entries.filter (·.1 ≠ names)).lookup other = entries.lookup other := by
  induction entries with
  | nil => rfl
  | cons entry rest ih =>
    obtain ⟨place, held⟩ := entry
    by_cases hplace : place = names
    · have hother : (other == place) = false := beq_eq_false_iff_ne.2 (hplace ▸ h)
      rw [List.filter_cons_of_neg (by simpa using hplace), List.lookup_cons, hother, ih]
    · rw [List.filter_cons_of_pos (by simpa using hplace), List.lookup_cons, List.lookup_cons, ih]

theorem get?_put_of_ne (h : other ≠ names) (e : Entry) :
    (s.put names e).get? other = s.get? other := by
  have hother : (other == names) = false := beq_eq_false_iff_ne.2 h
  rw [get?, get?, put, List.lookup_cons, hother, lookup_filter_ne h]

theorem get?_nil : s.get? [] = some .directory := rfl

/-- Only the end of a way may change where no directory stands. -/
theorem follow_put (h : s.get? names ≠ some .directory)
    (hfollow : s.follow start steps = .ok ends) (e : Entry) :
    (s.put names e).follow start steps = .ok ends := by
  induction steps generalizing start with
  | nil => exact hfollow
  | cons step rest ih =>
    rw [follow] at hfollow ⊢
    split at hfollow
    · cases hfollow
    · cases hfollow
    · next hstart =>
      have hne : start ≠ names := fun he => h (he ▸ hstart)
      rw [get?_put_of_ne hne, hstart]
      split at hfollow
      · next hstay =>
        rw [if_pos hstay]
        exact ih hfollow
      · next hmove =>
        rw [if_neg hmove]
        split at hfollow
        · next hup =>
          rw [if_pos hup]
          exact ih hfollow
        · next hdown =>
          rw [if_neg hdown]
          split at hfollow
          · cases hfollow
          · next hshort =>
            rw [if_neg hshort]
            exact ih hfollow

theorem locate_put (h : s.get? names ≠ some .directory) (hlocate : s.locate workDir path = .ok ends)
    (e : Entry) : (s.put names e).locate workDir path = .ok ends := by
  rw [locate] at hlocate ⊢
  cases hpath : pathBytes path with
  | error b =>
    rw [hpath] at hlocate
    cases hlocate
  | ok bytes =>
    simp only [hpath] at hlocate ⊢
    split_ifs at hlocate ⊢
    all_goals exact follow_put h hlocate e

theorem not_directory_of_target (h : s.target workDir path = .ok names) :
    s.get? names ≠ some .directory := by
  obtain ⟨ends, -, h⟩ := bind_eq_ok_iff.1 h
  split at h
  · cases h
  · next hfile =>
    split at h
    · obtain rfl := Except.ok.inj h
      rw [hfile]
      nofun
    · cases h
  · next hnone =>
    split at h
    · cases h
    · obtain ⟨-, -, h⟩ := bind_eq_ok_iff.1 h
      obtain rfl := Except.ok.inj h
      rw [hnone]
      nofun

theorem ne_nil_of_target (h : s.target workDir path = .ok names) : names ≠ [] := by
  rintro rfl
  exact not_directory_of_target h get?_nil

theorem target_put (h : s.target workDir path = .ok names) (bytes : List UInt8) :
    (s.put names (.file bytes)).target workDir path = .ok names := by
  have hdir := not_directory_of_target h
  have hfile := get?_put_self (s := s) (ne_nil_of_target h) (.file bytes)
  obtain ⟨ends, hlocate, h⟩ := bind_eq_ok_iff.1 h
  have hbare : Text.ofList ((path.toList.reverse.dropWhile (· == .char '/')).reverse) = path ∧
      ends = names := by
    split at h
    · cases h
    · split at h
      · next hbare => exact ⟨hbare, Except.ok.inj h⟩
      · cases h
    · split at h
      · cases h
      · next hbare =>
        obtain ⟨-, -, h⟩ := bind_eq_ok_iff.1 h
        exact ⟨not_not.1 hbare, Except.ok.inj h⟩
  obtain ⟨hbare, rfl⟩ := hbare
  apply bind_eq_ok_iff.2
  refine ⟨ends, locate_put hdir hlocate _, ?_⟩
  rw [hfile]
  exact if_pos hbare

/-! ### Texts that are written -/

theorem bytes?_congr {after : Store} (h : after.get? names = s.get? names) :
    after.bytes? names = s.bytes? names := by
  rw [bytes?, bytes?, h]

theorem bytes?_put_self (h : names ≠ []) (bytes : List UInt8) :
    (s.put names (.file bytes)).bytes? names = some bytes := by
  rw [bytes?, get?_put_self h]

variable {keep : List UInt8 → List UInt8}

theorem write_of_no_target {b : Breakdown} (h : s.target workDir path = .error b) :
    s.write workDir path keep text = (s, some b) := by
  rw [write, h]

theorem write_of_bytes (h : s.target workDir path = .ok names) (ht : text.bytes = .ok bytes) :
    s.write workDir path keep text =
      (s.put names (.file (keep ((s.bytes? names).getD []) ++ bytes)), none) := by
  simp only [write, h, ht]

theorem write_of_lone {l : Text.Utf8.Lone} (h : s.target workDir path = .ok names)
    (ht : text.bytes = .error l) :
    s.write workDir path keep text =
      (s.put names (.file (keep ((s.bytes? names).getD []))), some (.unencodable l)) := by
  simp only [write, h, ht]

end Store

end ApiPrep
