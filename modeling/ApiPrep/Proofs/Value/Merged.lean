import ApiPrep.Proofs.Value.Parts
import Mathlib.Data.List.Nodup

namespace ApiPrep.Entries

variable {entries above below : Entries} {pairs : List (Scalar × Value)} {key k : Text}
  {v : Value}

structure Keyed (entries : Entries) : Prop where
  texts : ∀ s ∈ entries.keys, ∃ t, s = .text t
  nodup : entries.keys.Nodup

theorem Keyed.nil : Keyed [] := ⟨nofun, List.nodup_nil⟩

theorem nodup_keys_put (h : entries.keys.Nodup) : (entries.put (.text key) v).keys.Nodup := by
  induction entries with
  | nil => exact List.nodup_singleton _
  | cons entry rest ih =>
    obtain ⟨s, w⟩ := entry
    rw [put]
    split
    · exact h
    · next hs =>
      obtain ⟨hfresh, hrest⟩ := List.nodup_cons.1 h
      refine List.nodup_cons.2 ⟨fun hmem => ?_, ih hrest⟩
      rcases mem_keys_put.1 hmem with he | hmem
      · exact hs (Scalar.same_text_iff.2 he)
      · exact hfresh hmem

theorem Keyed.put (h : Keyed entries) : Keyed (entries.put (.text key) v) where
  texts s hs := (mem_keys_put.1 hs).elim (fun he => ⟨key, he⟩) (h.texts s)
  nodup := nodup_keys_put h.nodup

theorem Keyed.merge (h : Keyed below) (hpairs : ∀ pair ∈ pairs, ∃ t, pair.1 = .text t) :
    Keyed (below.merge pairs) := by
  induction pairs generalizing below with
  | nil => exact h
  | cons pair rest ih =>
    obtain ⟨⟨t, ht⟩, hrest⟩ := List.forall_mem_cons.1 hpairs
    change Keyed (Entries.merge (below.put pair.1 pair.2) rest)
    rw [ht]
    exact ih h.put hrest

theorem Keyed.ofList (hpairs : ∀ pair ∈ pairs, ∃ t, pair.1 = .text t) :
    Keyed (ofList pairs) := Keyed.nil.merge hpairs

theorem Keyed.tail {entry : Scalar × Value} (h : Keyed (entry :: entries)) :
    Keyed entries where
  texts s hs := h.texts s (List.mem_cons_of_mem _ hs)
  nodup := (List.nodup_cons.1 h.nodup).2

theorem get?_merge (below : Entries) (h : Keyed above) (k : Text) :
    (below.merge above).get? k = (above.get? k).or (below.get? k) := by
  induction above generalizing below with
  | nil => rfl
  | cons entry rest ih =>
    obtain ⟨s, w⟩ := entry
    obtain ⟨t, rfl⟩ := h.texts s List.mem_cons_self
    change get? (Entries.merge (below.put (.text t) w) rest) k = _
    rw [ih _ h.tail, get?_put, get?_cons_text]
    by_cases ht : t = k
    · have hnone : get? rest k = none := by
        rw [← Option.not_isSome_iff_eq_none]
        intro hsome
        exact (List.nodup_cons.1 h.nodup).1 (ht ▸ has_iff.1 hsome)
      rw [if_pos ht, if_pos ht, hnone]
      rfl
    · rw [if_neg ht, if_neg ht]

end ApiPrep.Entries
