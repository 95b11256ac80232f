import ApiPrep.Parameter.Compare
import Mathlib.Data.Prod.Lex
import ApiPrep.Proofs.Text.Order

namespace ApiPrep.Parameter

/-- All that a signature says of a parameter. -/
structure Shape where
  baseName : Option Text
  dataType : Option Text
  dataFormat : Option Text
  required : Bool
deriving DecidableEq, Repr

def Shape.key (s : Shape) : Text × Text × Text × Bool :=
  (s.baseName.getD "", s.dataType.getD "", s.dataFormat.getD "", s.required)

def shape (p : Parameter) : Shape := ⟨p.baseName, p.dataType, p.dataFormat, p.required⟩

theorem agrees_iff_shape {p q : Parameter} : p.agrees q = true ↔ p.shape = q.shape := by
  simp only [agrees, shape, Bool.and_eq_true, beq_iff_eq, Shape.mk.injEq]
  constructor
  · rintro ⟨⟨⟨hb, ht⟩, hr⟩, hf⟩
    exact ⟨hb, ht, hf, hr⟩
  · rintro ⟨hb, ht, hf, hr⟩
    exact ⟨⟨⟨hb, ht⟩, hr⟩, hf⟩

theorem agreeAll_iff_shape {ps qs : List Parameter} :
    agreeAll ps qs = true ↔ ps.map shape = qs.map shape := by
  induction ps generalizing qs with
  | nil => cases qs <;> simp only [agreeAll, List.map_nil, List.map_cons, reduceCtorEq]
  | cons p ps ih =>
    cases qs with
    | nil => simp only [agreeAll, List.map_nil, List.map_cons, reduceCtorEq]
    | cons q qs =>
      simp only [agreeAll, Bool.and_eq_true, agrees_iff_shape, ih, List.map_cons,
        List.cons.injEq]

def shapes (ps : List (Option Parameter)) : List Shape :=
  ((ps.filterMap id).filter (·.baseName.isSome)).map shape

/-- Shapes in the order of comparison; those of equal keys stay in theirs. -/
def arranged (ss : List Shape) : List Shape := ss.mergeSort fun a b => keyLe a.key b.key

theorem map_shape_comparable (ps : List (Option Parameter)) :
    (comparable ps).map shape = arranged (shapes ps) :=
  List.map_mergeSort fun _ _ _ _ => rfl

/-- Two lists are the same set iff their shapes are arranged alike. -/
theorem sameSet_iff_arranged {left right : List (Option Parameter)} :
    sameSet left right = true ↔ arranged (shapes left) = arranged (shapes right) := by
  rw [sameSet, agreeAll_iff_shape, map_shape_comparable, map_shape_comparable]

/-! ### The order of keys -/

def ranked (k : Text × Text × Text × Bool) : Text ×ₗ Text ×ₗ Text ×ₗ Bool :=
  toLex (k.1, toLex (k.2.1, toLex k.2.2))

theorem ranked_injective : Function.Injective ranked := fun _ _ h => h

theorem keyLe_iff_ranked (a b : Text × Text × Text × Bool) :
    keyLe a b = true ↔ ranked a ≤ ranked b := by
  have field {α : Type} [LinearOrder α] (x y : α) (rest : Bool) :
      (if x ≠ y then decide (x < y) else rest) = true ↔ x < y ∨ x = y ∧ rest = true := by
    by_cases h : x = y
    · subst h
      simp only [ne_eq, not_true_eq_false, ↓reduceIte, lt_irrefl, true_and, false_or]
    · simp only [ne_eq, h, not_false_eq_true, ↓reduceIte, decide_eq_true_eq, false_and, or_false]
  have flag (x y : Bool) : (!x || y) = true ↔ x ≤ y := by cases x <;> cases y <;> decide
  simp only [keyLe, field, flag, ranked, Prod.Lex.toLex_le_toLex]

theorem keyLe_trans (a b c : Shape) (hab : keyLe a.key b.key = true)
    (hbc : keyLe b.key c.key = true) : keyLe a.key c.key = true := by
  rw [keyLe_iff_ranked] at *
  exact hab.trans hbc

theorem keyLe_total (a b : Shape) : (keyLe a.key b.key || keyLe b.key a.key) = true := by
  rw [Bool.or_eq_true, keyLe_iff_ranked, keyLe_iff_ranked]
  exact le_total _ _

theorem keyLe_antisymm {a b : Shape} (hab : keyLe a.key b.key = true)
    (hba : keyLe b.key a.key = true) : a.key = b.key := by
  rw [keyLe_iff_ranked] at hab hba
  exact ranked_injective (le_antisymm hab hba)

theorem keyLe_of_eq {a b : Shape} (h : a.key = b.key) : keyLe a.key b.key = true := by
  rw [keyLe_iff_ranked, h]

/-! ### The arrangement of shapes -/

theorem arranged_perm (ss : List Shape) : (arranged ss).Perm ss := List.mergeSort_perm ss _

theorem arranged_pairwise (ss : List Shape) :
    (arranged ss).Pairwise fun a b => keyLe a.key b.key = true :=
  List.pairwise_mergeSort keyLe_trans keyLe_total ss

theorem arranged_eq_of_perm {ss ts : List Shape} (hp : ss.Perm ts)
    (hs : ∀ a ∈ ss, ∀ b ∈ ss, a.key = b.key → a = b) : arranged ss = arranged ts := by
  refine List.Perm.eq_of_pairwise ?_ (arranged_pairwise ss) (arranged_pairwise ts)
    ((arranged_perm ss).trans (hp.trans (arranged_perm ts).symm))
  intro a b ha hb hab hba
  have hb' : b ∈ ss := hp.mem_iff.2 ((arranged_perm ts).mem_iff.1 hb)
  exact hs a ((arranged_perm ss).mem_iff.1 ha) b hb' (keyLe_antisymm hab hba)

theorem arranged_filter_key (ss : List Shape) (k : Text × Text × Text × Bool) :
    (arranged ss).filter (·.key = k) = ss.filter (·.key = k) := by
  have htie : (ss.filter (·.key = k)).Pairwise fun a b => keyLe a.key b.key = true := by
    refine List.pairwise_of_forall_mem_list fun a ha b hb => ?_
    simp only [List.mem_filter, decide_eq_true_eq] at ha hb
    exact keyLe_of_eq (ha.2.trans hb.2.symm)
  have hsub := List.sublist_mergeSort keyLe_trans keyLe_total htie List.filter_sublist
  have hfilter := hsub.filter (·.key = k)
  rw [List.filter_filter] at hfilter
  simp only [Bool.and_self] at hfilter
  exact (hfilter.eq_of_length ((arranged_perm ss).filter _).length_eq.symm).symm

end ApiPrep.Parameter
