import ApiPrep.Promotion.Detect
import Mathlib.Data.List.Nodup

namespace ApiPrep

variable {α : Type}

/-- The third list is made of the other two, each in its order and nothing besides. -/
inductive Interleaved : List α → List α → List α → Prop
  | nil : Interleaved [] [] []
  | left {a : α} {xs ys zs : List α} (h : Interleaved xs ys zs) : Interleaved (a :: xs) ys (a :: zs)
  | right {a : α} {xs ys zs : List α} (h : Interleaved xs ys zs) :
      Interleaved xs (a :: ys) (a :: zs)

theorem Interleaved.length {xs ys zs : List α} (h : Interleaved xs ys zs) :
    xs.length + ys.length = zs.length := by
  induction h with
  | nil => rfl
  | left h ih => simp only [List.length_cons]; omega
  | right h ih => simp only [List.length_cons]; omega

namespace Promotion

theorem partitionAt_cons (indexes : List Nat) (here : Nat) (a : α) (rest : List α) :
    partitionAt indexes here (a :: rest) =
      if here ∈ indexes then
        (a :: (partitionAt indexes (here + 1) rest).1, (partitionAt indexes (here + 1) rest).2)
      else
        ((partitionAt indexes (here + 1) rest).1,
          a :: (partitionAt indexes (here + 1) rest).2) := by
  simp only [partitionAt, List.contains_eq_mem, decide_eq_true_eq]

theorem partitionAt_interleaved (indexes : List Nat) (here : Nat) (items : List α) :
    Interleaved (partitionAt indexes here items).1 (partitionAt indexes here items).2 items := by
  induction items generalizing here with
  | nil => exact .nil
  | cons a rest ih =>
    rw [partitionAt_cons]
    split
    · exact .left (ih _)
    · exact .right (ih _)

def itemsAt (indexes : List Nat) (here : Nat) (items : List α) : List α :=
  ((items.zipIdx here).filter fun item => item.2 ∈ indexes).map Prod.fst

def itemsBeside (indexes : List Nat) (here : Nat) (items : List α) : List α :=
  ((items.zipIdx here).filter fun item => item.2 ∉ indexes).map Prod.fst

theorem partitionAt_eq (indexes : List Nat) (here : Nat) (items : List α) :
    partitionAt indexes here items =
      (itemsAt indexes here items, itemsBeside indexes here items) := by
  induction items generalizing here with
  | nil => rfl
  | cons a rest ih =>
    rw [partitionAt_cons, ih]
    by_cases h : here ∈ indexes
    · simp only [itemsAt, itemsBeside, List.zipIdx_cons, List.filter_cons, h, not_true_eq_false,
        decide_true, decide_false, Bool.false_eq_true, ↓reduceIte, List.map_cons]
    · simp only [itemsAt, itemsBeside, List.zipIdx_cons, List.filter_cons, h, not_false_eq_true,
        decide_true, decide_false, Bool.false_eq_true, ↓reduceIte, List.map_cons]

theorem length_itemsAt {indexes : List Nat} {items : List α} (hn : indexes.Nodup)
    (hlt : ∀ i ∈ indexes, i < items.length) :
    (itemsAt indexes 0 items).length = indexes.length := by
  have hplaces : ((items.zipIdx 0).filter fun item => item.2 ∈ indexes).map Prod.snd =
      (List.range items.length).filter fun i => i ∈ indexes := by
    rw [List.range_eq_range', ← List.zipIdx_map_snd, List.filter_map]
    rfl
  have hperm : ((List.range items.length).filter fun i => i ∈ indexes).Perm indexes := by
    rw [List.perm_ext_iff_of_nodup (List.nodup_range.filter _) hn]
    intro i
    simp only [List.mem_filter, List.mem_range, decide_eq_true_eq]
    exact ⟨fun h => h.2, fun h => ⟨hlt i h, h⟩⟩
  rw [itemsAt, List.length_map, ← hperm.length_eq, ← hplaces, List.length_map]

theorem partitionAt_eq_filter {indexes : List Nat} {here : Nat} {items : List α} {p : α → Bool}
    (h : ∀ i a, items[i]? = some a → (here + i ∈ indexes ↔ p a = true)) :
    partitionAt indexes here items = (items.filter p, items.filter fun a => !p a) := by
  induction items generalizing here with
  | nil => rfl
  | cons a rest ih =>
    have hrest : partitionAt indexes (here + 1) rest =
        (rest.filter p, rest.filter fun a => !p a) := by
      refine ih fun i b hb => ?_
      rw [Nat.add_right_comm, Nat.add_assoc]
      exact h (i + 1) b hb
    have ha : here ∈ indexes ↔ p a = true := h 0 a rfl
    rw [partitionAt_cons, hrest, List.filter_cons, List.filter_cons]
    by_cases hp : p a = true
    · rw [if_pos (ha.2 hp), if_pos hp, hp]
      rfl
    · rw [if_neg (fun hm => hp (ha.1 hm)), if_neg hp, Bool.eq_false_iff.2 hp]
      rfl

theorem partitionAt_append (indexes : List Nat) (here : Nat) (xs ys : List α) :
    partitionAt indexes here (xs ++ ys) =
      ((partitionAt indexes here xs).1 ++ (partitionAt indexes (here + xs.length) ys).1,
        (partitionAt indexes here xs).2 ++ (partitionAt indexes (here + xs.length) ys).2) := by
  simp only [partitionAt_eq, itemsAt, itemsBeside, List.zipIdx_append, List.filter_append,
    List.map_append]

theorem partitionAt_congr {indexes indexes' : List Nat} {here here' : Nat} {items : List α}
    (h : ∀ i < items.length, here + i ∈ indexes ↔ here' + i ∈ indexes') :
    partitionAt indexes here items = partitionAt indexes' here' items := by
  induction items generalizing here here' with
  | nil => rfl
  | cons a rest ih =>
    have hrest : partitionAt indexes (here + 1) rest = partitionAt indexes' (here' + 1) rest := by
      refine ih fun i hi => ?_
      rw [Nat.add_right_comm here, Nat.add_right_comm here']
      exact h (i + 1) (Nat.succ_lt_succ hi)
    have ha : here ∈ indexes ↔ here' ∈ indexes' := h 0 (Nat.succ_pos _)
    rw [partitionAt_cons, partitionAt_cons, hrest]
    simp only [ha]

/-- The place that an item has once another one has been put in at `place`. -/
def past (place i : Nat) : Nat := if i < place then i else i + 1

theorem past_of_lt {place i : Nat} (h : i < place) : past place i = i := if_pos h

theorem past_of_le {place i : Nat} (h : place ≤ i) : past place i = i + 1 :=
  if_neg (Nat.not_lt.2 h)

theorem past_ne (place i : Nat) : past place i ≠ place := by
  rw [past]
  split <;> omega

theorem past_injective (place : Nat) : Function.Injective (past place) := by
  intro i j h
  rw [past, past] at h
  split at h <;> split at h <;> omega

theorem past_mem_map_iff (indexes : List Nat) (place i : Nat) :
    past place i ∈ indexes.map (past place) ↔ i ∈ indexes :=
  List.mem_map_of_injective (past_injective place)

/-- An item that is put in among others stays behind, if the indexes go past it; nothing else
changes. -/
theorem partitionAt_insert (indexes : List Nat) (before after : List α) (a : α) :
    partitionAt (indexes.map (past before.length)) 0 (before ++ a :: after) =
      ((partitionAt indexes 0 before).1 ++ (partitionAt indexes before.length after).1,
        (partitionAt indexes 0 before).2 ++ a :: (partitionAt indexes before.length after).2) := by
  have hbefore : partitionAt (indexes.map (past before.length)) 0 before =
      partitionAt indexes 0 before := by
    refine partitionAt_congr fun i hi => ?_
    have hi' := past_mem_map_iff indexes before.length i
    rwa [past_of_lt hi, ← Nat.zero_add i] at hi'
  -- the items behind have moved on by one place, as their indexes have
  have hafter : partitionAt (indexes.map (past before.length)) (before.length + 1) after =
      partitionAt indexes before.length after := by
    refine partitionAt_congr fun i _ => ?_
    have hi := past_mem_map_iff indexes before.length (before.length + i)
    rwa [past_of_le (Nat.le_add_right _ i), Nat.add_right_comm] at hi
  have ha : before.length ∉ indexes.map (past before.length) := by
    rw [List.mem_map]
    rintro ⟨i, -, hi⟩
    exact past_ne before.length i hi
  rw [partitionAt_append, Nat.zero_add, partitionAt_cons, if_neg ha, hbefore, hafter]

theorem findIdx_insert {p : α → Bool} {a : α} (ha : p a = false) (before after : List α) :
    (before ++ a :: after).findIdx p = past before.length ((before ++ after).findIdx p) := by
  rw [List.findIdx_append, List.findIdx_append, List.findIdx_cons, ha]
  split
  · next h => exact (past_of_lt h).symm
  · rw [past_of_le (Nat.le_add_left _ _), cond_false, Nat.add_right_comm]

end Promotion

end ApiPrep
