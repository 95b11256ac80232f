import ApiPrep.Proofs.Text.Pieces

namespace ApiPrep.Path

open Text

variable {first last lead more path rest s : List Rune} {segments : List (List Rune)}

def slashed (segments : List (List Rune)) : List Rune := segments.flatMap ('/' :: ·)

theorem slashed_cons (s : List Rune) (segments : List (List Rune)) :
    slashed (s :: segments) = .char '/' :: s ++ slashed segments := rfl

theorem slashed_append (front back : List (List Rune)) :
    slashed (front ++ back) = slashed front ++ slashed back := List.flatMap_append

theorem slashed_concat (segments : List (List Rune)) (s : List Rune) :
    slashed (segments ++ [s]) = slashed segments ++ .char '/' :: s := by
  rw [slashed_append, slashed_cons]
  exact congrArg (slashed segments ++ ·) (List.append_nil _)

theorem intercalate_slashed (s : List Rune) (segments : List (List Rune)) :
    [Rune.char '/'].intercalate (s :: segments) = s ++ slashed segments :=
  intercalate_cons ('/') s segments

theorem slashed_eq_intercalate (h : segments ≠ []) :
    slashed segments = .char '/' :: [Rune.char '/'].intercalate segments := by
  cases segments with
  | nil => exact absurd rfl h
  | cons s segments => rw [intercalate_slashed, slashed_cons, List.cons_append]

/-! ### Beginnings of paths -/

def firstSegment? : List Rune → Option (List Rune)
  | '/' :: rest => some (rest.takeWhile (· ≠ '/'))
  | _ => none

theorem takeWhile_append_of_no_slash (hs : .char '/' ∉ s) (rest : List Rune) :
    (s ++ rest).takeWhile (· ≠ .char '/') = s ++ rest.takeWhile (· ≠ .char '/') := by
  refine List.takeWhile_append_of_pos fun c hc => decide_eq_true ?_
  rintro rfl
  exact hs hc

theorem firstSegment?_append (hfirst : .char '/' ∉ first) (rest : List Rune) :
    firstSegment? (.char '/' :: first ++ rest) = some (first ++ rest.takeWhile (· ≠ .char '/')) :=
  congrArg some (takeWhile_append_of_no_slash hfirst rest)

theorem firstSegment?_slashed (hs : .char '/' ∉ s) (segments : List (List Rune)) :
    firstSegment? (slashed (s :: segments)) = some s := by
  have hnone : (slashed segments).takeWhile (· ≠ .char '/') = [] := by cases segments <;> rfl
  rw [slashed_cons, firstSegment?_append hs, hnone, List.append_nil]

theorem prefix_of_firstSegment? (h : firstSegment? path = some (first ++ more)) :
    .char '/' :: first <+: path := by
  unfold firstSegment? at h
  split at h
  · next rest =>
    have hfirst : first <+: rest.takeWhile (· ≠ '/') := ⟨more, (Option.some.inj h).symm⟩
    exact List.cons_prefix_cons.2 ⟨rfl, hfirst.trans (List.takeWhile_prefix _)⟩
  · cases h

def withoutFirst (first path : List Rune) : List Rune :=
  if firstSegment? path = some first then path.drop (first.length + 1) else path

/-- Whether there is a segment that begins with the given one and goes on behind it. -/
def Outgrows (first : List Rune) (segment : Option (List Rune)) : Prop :=
  ∃ more, more ≠ [] ∧ segment = some (first ++ more)

theorem outgrows_append_iff : Outgrows first (some (first ++ more)) ↔ more ≠ [] := by
  constructor
  · rintro ⟨more', hne, he⟩
    rwa [List.append_cancel_left (Option.some.inj he)]
  · intro hne
    exact ⟨more, hne, rfl⟩

theorem not_outgrows_self (first : List Rune) : ¬Outgrows first (some first) := by
  rintro ⟨more, hne, he⟩
  exact hne (List.self_eq_append_right.1 (Option.some.inj he))

theorem not_outgrows {segment : Option (List Rune)}
    (h : ∀ more, segment ≠ some (first ++ more)) : ¬Outgrows first segment := by
  rintro ⟨more, -, he⟩
  exact h more he

theorem append_eq_self_iff : some (first ++ more) = some first ↔ more = [] := by
  rw [Option.some_inj, List.append_right_eq_self]

/-- A beginning of a path takes all of the first segment or nothing unless that outgrows it. -/
theorem dropLead_eq_withoutFirst_iff (hfirst : .char '/' ∉ first) (path : List Rune) :
    dropLead ('/' :: first) path = withoutFirst first path ↔
      ¬Outgrows first (firstSegment? path) := by
  rw [withoutFirst]
  by_cases hlead : .char '/' :: first <+: path
  · obtain ⟨rest, rfl⟩ := hlead
    rw [dropLead_append, firstSegment?_append hfirst, outgrows_append_iff, not_not]
    by_cases hmore : rest.takeWhile (· ≠ .char '/') = []
    · rw [if_pos (append_eq_self_iff.2 hmore)]
      exact iff_of_true (List.drop_left' rfl).symm hmore
    · rw [if_neg (mt append_eq_self_iff.1 hmore)]
      -- The path is longer than what is left of it.
      refine iff_of_false (fun he => ?_) hmore
      have hlength := congrArg List.length he
      rw [List.length_append, List.length_cons] at hlength
      omega
  · have hnone (more : List Rune) : firstSegment? path ≠ some (first ++ more) := by
      intro h
      exact hlead (prefix_of_firstSegment? h)
    have hself : firstSegment? path ≠ some first := by
      rw [← List.append_nil first]
      exact hnone []
    rw [dropLead_eq_self hlead, if_neg hself]
    exact iff_of_true rfl (not_outgrows hnone)

/-! ### Ends of paths -/

theorem eq_of_append_slash {t : List Rune} (hs : .char '/' ∉ s) (hlast : .char '/' ∉ last)
    (h : lead ++ .char '/' :: s = t ++ .char '/' :: last) : lead = t ∧ s = last := by
  rcases List.append_eq_append_iff.1 h with ⟨between, rfl, hb⟩ | ⟨between, rfl, hb⟩
  · cases between with
    | nil => exact ⟨(List.append_nil _).symm, (List.cons.inj hb).2⟩
    | cons c between =>
      rw [(List.cons.inj hb).2] at hs
      exact absurd (List.mem_append_right between List.mem_cons_self) hs
  · cases between with
    | nil => exact ⟨List.append_nil _, (List.cons.inj hb).2.symm⟩
    | cons c between =>
      rw [(List.cons.inj hb).2] at hlast
      exact absurd (List.mem_append_right between List.mem_cons_self) hlast

def withoutLast (last : List Rune) (segments : List (List Rune)) : List (List Rune) :=
  if segments.getLast? = some last then segments.dropLast else segments

theorem withoutLast_subset (last : List Rune) (segments : List (List Rune)) :
    withoutLast last segments ⊆ segments := by
  rw [withoutLast]
  split
  · exact List.dropLast_subset segments
  · exact List.Subset.refl segments

theorem withoutLast_cons (h : s ≠ last) (segments : List (List Rune)) :
    withoutLast last (s :: segments) = s :: withoutLast last segments := by
  cases segments with
  | nil => exact if_neg fun he => h (Option.some.inj he)
  | cons t segments =>
    rw [withoutLast, withoutLast, List.getLast?_cons_cons]
    split <;> rfl

theorem dropEnding_slashed (hlast : .char '/' ∉ last) (hlead : .char '/' ∉ lead)
    (h : ∀ s ∈ segments, .char '/' ∉ s) :
    dropEnding ('/' :: last) (lead ++ slashed segments) =
      lead ++ slashed (withoutLast last segments) := by
  rw [withoutLast]
  rcases List.eq_nil_or_concat' segments with rfl | ⟨front, s, rfl⟩
  · refine dropEnding_eq_self ?_
    rintro ⟨t, ht⟩
    have hmem : .char '/' ∈ t ++ .char '/' :: last := List.mem_append_right t List.mem_cons_self
    rw [ht, slashed, List.flatMap_nil, List.append_nil] at hmem
    exact hlead hmem
  · rw [List.getLast?_concat, slashed_concat, ← List.append_assoc]
    by_cases hs : s = last
    · rw [if_pos (congrArg some hs), hs, dropEnding_append, List.dropLast_concat]
    · rw [if_neg (fun he => hs (Option.some.inj he)), slashed_concat, ← List.append_assoc]
      refine dropEnding_eq_self ?_
      rintro ⟨t, ht⟩
      have hslash : .char '/' ∉ s := h s (List.mem_append_right front List.mem_cons_self)
      exact hs (eq_of_append_slash hslash hlast ht.symm).2

theorem not_slash_of_mem (hs : .char '/' ∉ s) {c : Rune} (hc : c ∈ s) : (c == '/') = false := by
  rw [beq_eq_false_iff_ne]
  rintro rfl
  exact hs hc

theorem trimBy_intercalate (h : ∀ s ∈ segments, s ≠ [] ∧ .char '/' ∉ s) :
    trimBy (· == '/') ([Rune.char '/'].intercalate segments) =
      [Rune.char '/'].intercalate segments := by
  refine trimBy_eq_self ?_ ?_
  · intro c hc
    cases segments with
    | nil => cases hc
    | cons s segments =>
      obtain ⟨hne, hs⟩ := h s List.mem_cons_self
      rw [intercalate_slashed, List.head?_append_of_ne_nil s hne] at hc
      exact not_slash_of_mem hs (List.mem_of_head? hc)
  · intro c hc
    rcases List.eq_nil_or_concat' segments with rfl | ⟨front, s, rfl⟩
    · cases hc
    · obtain ⟨hne, hs⟩ := h s (List.mem_append_right front List.mem_cons_self)
      have hend : ∃ t, [Rune.char '/'].intercalate (front ++ [s]) = t ++ s := by
        cases front with
        | nil => exact ⟨[], List.intercalate_singleton⟩
        | cons first front =>
          refine ⟨first ++ slashed front ++ [.char '/'], ?_⟩
          rw [List.cons_append, intercalate_slashed, slashed_concat, List.append_assoc,
            List.append_assoc]
          rfl
      obtain ⟨t, ht⟩ := hend
      rw [ht, List.getLast?_append_of_ne_nil t hne] at hc
      exact not_slash_of_mem hs (List.mem_of_getLast? hc)

theorem trimBy_slashed (h : ∀ s ∈ segments, s ≠ [] ∧ .char '/' ∉ s) :
    trimBy (· == '/') (slashed segments) = [Rune.char '/'].intercalate segments := by
  cases segments with
  | nil => rfl
  | cons s segments =>
    rw [slashed_eq_intercalate (List.cons_ne_nil s segments), trimBy_cons rfl,
      trimBy_intercalate h]

/-! ### Paths taken apart -/

theorem splitBy_slashed (h : ∀ s ∈ segments, .char '/' ∉ s) :
    splitBy (· == .char '/') (slashed segments) = [] :: segments := by
  cases segments with
  | nil => rfl
  | cons s segments =>
    have hlead := splitBy_append_cons (p := (· == '/')) (beq_self_eq_true (Rune.char '/')) []
    rw [slashed_eq_intercalate (List.cons_ne_nil s segments)]
    exact (hlead _).trans (congrArg _ (splitBy_intercalate_plain (List.cons_ne_nil s segments) h))

end ApiPrep.Path
