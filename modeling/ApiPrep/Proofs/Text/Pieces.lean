import ApiPrep.Text.Blank
import ApiPrep.Text.Pieces
import Mathlib.Data.List.Basic
import Mathlib.Data.List.TakeWhile

namespace ApiPrep.Text

variable {c : Rune} {p : Rune → Bool} {s lead ending : List Rune}

/-! ### Beginnings and endings -/

theorem afterLead?_append (lead s : List Rune) : afterLead? lead (lead ++ s) = some s := by
  induction lead with
  | nil => rfl
  | cons c lead ih => exact (if_pos rfl).trans ih

theorem prefix_of_afterLead? (h : (afterLead? lead s).isSome) : lead <+: s := by
  induction lead generalizing s with
  | nil => exact List.nil_prefix
  | cons l lead ih =>
    cases s with
    | nil => cases h
    | cons c s =>
      rw [afterLead?] at h
      split at h
      · next hc => exact List.cons_prefix_cons.2 ⟨hc, ih h⟩
      · cases h

theorem dropLead_append (lead s : List Rune) : dropLead lead (lead ++ s) = s := by
  rw [dropLead, afterLead?_append, Option.getD_some]

theorem dropLead_eq_self (h : ¬lead <+: s) : dropLead lead s = s := by
  rw [dropLead, Option.not_isSome_iff_eq_none.1 (mt prefix_of_afterLead? h), Option.getD_none]

theorem dropEnding_append (s ending : List Rune) : dropEnding ending (s ++ ending) = s := by
  rw [dropEnding, List.reverse_append, dropLead_append, List.reverse_reverse]

theorem dropEnding_eq_self (h : ¬ending <:+ s) : dropEnding ending s = s := by
  rw [dropEnding, dropLead_eq_self (mt List.reverse_prefix.1 h), List.reverse_reverse]

/-! ### Ends that are cut off -/

theorem trimBy_cons (hc : p c = true) (s : List Rune) : trimBy p (c :: s) = trimBy p s := by
  rw [trimBy, trimBy, List.dropWhile_cons_of_pos hc]

theorem trimBy_eq_self (hhead : ∀ c ∈ s.head?, p c = false)
    (hlast : ∀ c ∈ s.getLast?, p c = false) : trimBy p s = s := by
  have hkeep {t : List Rune} (h : ∀ c ∈ t.head?, p c = false) : t.dropWhile p = t := by
    cases t with
    | nil => rfl
    | cons c t => exact List.dropWhile_cons_of_neg (Bool.eq_false_iff.1 (h c rfl))
  rw [← List.head?_reverse] at hlast
  rw [trimBy, hkeep hhead, hkeep hlast, List.reverse_reverse]

theorem trimBy_append {lead trail : List Rune} (hlead : ∀ c ∈ lead, p c = true)
    (htrail : ∀ c ∈ trail, p c = true) (s : List Rune) :
    trimBy p (lead ++ s ++ trail) = trimBy p s := by
  rw [trimBy, trimBy, List.append_assoc, List.dropWhile_append_of_pos hlead, List.dropWhile_append]
  split
  · next h =>
    rw [List.isEmpty_iff.1 h, List.dropWhile_eq_nil_iff.2 htrail]
  · have hback : ∀ c ∈ trail.reverse, p c = true := fun c hc => htrail c (List.mem_reverse.1 hc)
    rw [List.reverse_append, List.dropWhile_append_of_pos hback]

def Stripped (p : Rune → Bool) (s t : List Rune) : Prop :=
  ∃ lead trail, s = lead ++ t ++ trail ∧ (∀ c ∈ lead ++ trail, p c = true) ∧
    (∀ c ∈ t.head?, p c = false) ∧ ∀ c ∈ t.getLast?, p c = false

theorem stripped_trimBy (p : Rune → Bool) (s : List Rune) : Stripped p s (trimBy p s) := by
  have hfirst (u : List Rune) : ∀ c ∈ (u.dropWhile p).head?, p c = false := by
    intro c hc
    have h := List.head?_dropWhile_not p u
    rw [hc] at h
    exact h
  let u := s.dropWhile p
  have hs : s = s.takeWhile p ++ u := List.takeWhile_append_dropWhile.symm
  have hu : u = trimBy p s ++ (u.reverse.takeWhile p).reverse := by
    rw [trimBy, ← List.reverse_append, List.takeWhile_append_dropWhile, List.reverse_reverse]
  refine ⟨_, _, hs.trans (by rw [List.append_assoc, ← hu]), ?_, ?_, ?_⟩
  · refine List.forall_mem_append.2 ⟨fun c hc => List.mem_takeWhile_imp hc, fun c hc => ?_⟩
    exact List.mem_takeWhile_imp (List.mem_reverse.1 hc)
  · intro c hc
    refine hfirst s c ?_
    change c ∈ u.head?
    rw [hu, List.head?_append, hc]
    rfl
  · rw [trimBy, List.getLast?_reverse]
    exact hfirst _

theorem trimBy_eq_iff {t : List Rune} : trimBy p s = t ↔ Stripped p s t := by
  constructor
  · rintro rfl
    exact stripped_trimBy p s
  · rintro ⟨lead, trail, rfl, hends, hhead, hlast⟩
    obtain ⟨hlead, htrail⟩ := List.forall_mem_append.1 hends
    rw [trimBy_append hlead htrail, trimBy_eq_self hhead hlast]

/-! ### Pieces -/

theorem splitBy_cons (p : Rune → Bool) (c : Rune) (s : List Rune) :
    ∃ word words, splitBy p s = word :: words ∧
      splitBy p (c :: s) = if p c then [] :: word :: words else (c :: word) :: words := by
  induction s generalizing c with
  | nil => exact ⟨[], [], rfl, rfl⟩
  | cons d s ih =>
    obtain ⟨word, words, -, hd⟩ := ih d
    split at hd
    · exact ⟨[], word :: words, hd, by rw [splitBy, hd]⟩
    · exact ⟨d :: word, words, hd, by rw [splitBy, hd]⟩

theorem splitBy_append (h : ∀ c ∈ s, p c = false) (t : List Rune) :
    ∃ word words, splitBy p t = word :: words ∧ splitBy p (s ++ t) = (s ++ word) :: words := by
  induction s with
  | nil =>
    cases t with
    | nil => exact ⟨[], [], rfl, rfl⟩
    | cons c t =>
      obtain ⟨word, words, -, hsplit⟩ := splitBy_cons p c t
      split at hsplit <;> exact ⟨_, _, hsplit, hsplit⟩
  | cons c s ih =>
    obtain ⟨hc, hs⟩ := List.forall_mem_cons.1 h
    obtain ⟨word, words, ht, hst⟩ := ih hs
    obtain ⟨first, rest, hfirst, hcons⟩ := splitBy_cons p c (s ++ t)
    obtain ⟨rfl, rfl⟩ := List.cons.inj (hfirst.symm.trans hst)
    rw [hc, if_neg Bool.false_ne_true] at hcons
    exact ⟨word, _, ht, hcons⟩

theorem splitBy_append_cons (hc : p c = true) (s t : List Rune) :
    splitBy p (s ++ c :: t) = splitBy p s ++ splitBy p t := by
  induction s with
  | nil =>
    obtain ⟨word, words, ht, hcons⟩ := splitBy_cons p c t
    rw [List.nil_append, hcons, if_pos hc, ht]
    rfl
  | cons d s ih =>
    obtain ⟨word, words, hs, hcons⟩ := splitBy_cons p d s
    obtain ⟨first, rest, hst, hall⟩ := splitBy_cons p d (s ++ c :: t)
    rw [ih, hs] at hst
    obtain ⟨rfl, rfl⟩ := List.cons.inj hst
    rw [List.cons_append, hall, hcons]
    split <;> rfl

theorem splitBy_plain (h : ∀ c ∈ s, p c = false) : splitBy p s = [s] := by
  obtain ⟨word, words, hnil, hs⟩ := splitBy_append h []
  obtain ⟨rfl, rfl⟩ := List.cons.inj hnil
  rwa [List.append_nil] at hs

theorem plain_of_mem_splitBy {piece : List Rune} (h : piece ∈ splitBy p s) :
    ∀ c ∈ piece, p c = false := by
  induction s generalizing piece with
  | nil =>
    rw [List.mem_singleton.1 h]
    exact List.forall_mem_nil _
  | cons d s ih =>
    obtain ⟨word, words, hs, hcons⟩ := splitBy_cons p d s
    rw [hs] at ih
    rw [hcons] at h
    split at h
    · rcases List.mem_cons.1 h with rfl | h
      · exact List.forall_mem_nil _
      · exact ih h
    · next hd =>
      rcases List.mem_cons.1 h with rfl | h
      · exact List.forall_mem_cons.2 ⟨Bool.eq_false_iff.2 hd, ih List.mem_cons_self⟩
      · exact ih (List.mem_cons_of_mem word h)

theorem intercalate_cons (sep : Rune) (w : List Rune) (words : List (List Rune)) :
    [sep].intercalate (w :: words) = w ++ words.flatMap (sep :: ·) := by
  induction words generalizing w with
  | nil => rw [List.intercalate_singleton, List.flatMap_nil, List.append_nil]
  | cons v words ih =>
    rw [List.intercalate_cons_cons, ih, List.append_assoc]
    rfl

theorem splitBy_intercalate (sep : Rune) {pieces : List (List Rune)} (hne : pieces ≠ []) :
    splitBy (· == sep) ([sep].intercalate pieces) = pieces.flatMap (splitBy (· == sep)) := by
  induction pieces with
  | nil => exact absurd rfl hne
  | cons w pieces ih =>
    cases pieces with
    | nil => rw [List.intercalate_singleton, List.flatMap_singleton]
    | cons v pieces =>
      have happend := splitBy_append_cons (p := (· == sep)) (beq_self_eq_true sep) w
      rw [List.intercalate_cons_cons, List.append_assoc, List.singleton_append, happend,
        ih (List.cons_ne_nil v pieces)]
      rfl

theorem splitBy_intercalate_plain {sep : Rune} {pieces : List (List Rune)} (hne : pieces ≠ [])
    (h : ∀ q ∈ pieces, sep ∉ q) : splitBy (· == sep) ([sep].intercalate pieces) = pieces := by
  have hplain : ∀ q ∈ pieces, splitBy (· == sep) q = [q] := by
    refine fun q hq => splitBy_plain fun c hc => beq_eq_false_iff_ne.2 ?_
    rintro rfl
    exact h q hq hc
  rw [splitBy_intercalate sep hne, List.flatMap_congr hplain, List.flatMap_singleton']

theorem intercalate_splitBy (sep : Rune) (s : List Rune) :
    [sep].intercalate (splitBy (· == sep) s) = s := by
  induction s with
  | nil => rfl
  | cons c s ih =>
    obtain ⟨word, words, hs, hcons⟩ := splitBy_cons (· == sep) c s
    rw [hs] at ih
    rw [hcons]
    split
    · next hc => rw [List.intercalate_cons_cons, ih, beq_iff_eq.1 hc]; rfl
    · rw [intercalate_cons, List.cons_append, ← intercalate_cons, ih]

/-- The stretches between signs are those that give the text with a sign between any two. -/
theorem mem_splitBy_iff {sep : Rune} {piece : List Rune} : piece ∈ splitBy (· == sep) s ↔
    ∃ pieces, [sep].intercalate pieces = s ∧ (∀ q ∈ pieces, sep ∉ q) ∧ piece ∈ pieces := by
  constructor
  · intro h
    refine ⟨_, intercalate_splitBy sep s, fun q hq hsep => ?_, h⟩
    have hself := plain_of_mem_splitBy hq sep hsep
    exact absurd rfl (beq_eq_false_iff_ne.1 hself)
  · rintro ⟨pieces, rfl, hplain, hpiece⟩
    rwa [splitBy_intercalate_plain (List.ne_nil_of_mem hpiece) hplain]

end ApiPrep.Text
