import ApiPrep.Proofs.Store.Writing

namespace ApiPrep.Store

open Outcome

variable {s after : Store} {names other steps workDir : List Name} {path text : Text}

/-! ### Directories -/

theorem bytes?_put_directory (h : s.get? names = none) :
    (s.put names .directory).bytes? = s.bytes? := by
  have hgiven : names ≠ [] := by
    rintro rfl
    cases h
  funext other
  by_cases hother : other = names
  · rw [hother, bytes?, bytes?, get?_put_self hgiven, h]
  · exact bytes?_congr (get?_put_of_ne hother _)

theorem bytes?_makeSteps (h : s.makeSteps names steps = .ok after) : after.bytes? = s.bytes? := by
  induction steps generalizing s names with
  | nil => rw [Except.ok.inj h]
  | cons step rest ih =>
    rw [makeSteps] at h
    split at h
    · exact ih h
    · split at h
      · exact ih h
      · split at h
        · cases h
        · split at h
          · next hnone => exact (ih h).trans (bytes?_put_directory hnone)
          · exact ih h
          · cases h

theorem bytes?_makeDirectory {p : Place} (h : s.makeDirectory workDir p = .ok after) :
    after.bytes? = s.bytes? := by
  rw [makeDirectory] at h
  split at h
  · cases h
  · exact bytes?_makeSteps h

/-! ### Files that are written -/

/-- Whether bytes are what a file has come to hold, while the others are as they were. -/
structure Rewritten (before : Store) (workDir : List Name) (path : Text) (bytes : List UInt8)
    (names : List Name) (after : Store) : Prop where
  target : after.target workDir path = .ok names
  held : after.bytes? names = some bytes
  others : ∀ other, other ≠ names → after.bytes? other = before.bytes? other

theorem Rewritten.of_bytes?_eq {before : Store} {bytes : List UInt8}
    (h : Rewritten before workDir path bytes names after) (hfiles : before.bytes? = s.bytes?) :
    Rewritten s workDir path bytes names after :=
  ⟨h.target, h.held, fun other hother => hfiles ▸ h.others other hother⟩

theorem rewritten_put (h : s.target workDir path = .ok names) (bytes : List UInt8) :
    Rewritten s workDir path bytes names (s.put names (.file bytes)) where
  target := target_put h bytes
  held := bytes?_put_self (ne_nil_of_target h) bytes
  others _ hother := bytes?_congr (get?_put_of_ne hother _)

/-- A file that is written over holds the text and nothing else. If the text has no bytes the file
holds nothing at all, and if it cannot be opened all is as it was. -/
theorem replace_cases (s : Store) (workDir : List Name) (path text : Text) :
    (∃ b, s.target workDir path = .error b ∧ s.replace workDir path text = (s, some b)) ∨
    ∃ names after, s.target workDir path = .ok names ∧
      ((∃ bytes, text.bytes = .ok bytes ∧ s.replace workDir path text = (after, none) ∧
        Rewritten s workDir path bytes names after) ∨
      ∃ l, text.bytes = .error l ∧ s.replace workDir path text = (after, some (.unencodable l)) ∧
        Rewritten s workDir path [] names after) := by
  cases htarget : s.target workDir path with
  | error b => exact .inl ⟨b, rfl, write_of_no_target htarget⟩
  | ok names =>
    refine .inr ⟨names, ?_⟩
    cases hbytes : text.bytes with
    | ok bytes =>
      exact ⟨_, rfl, .inl ⟨bytes, rfl, write_of_bytes htarget hbytes, rewritten_put htarget bytes⟩⟩
    | error l =>
      exact ⟨_, rfl, .inr ⟨l, rfl, write_of_lone htarget hbytes, rewritten_put htarget []⟩⟩

end ApiPrep.Store
