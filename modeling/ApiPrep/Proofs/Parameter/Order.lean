import ApiPrep.Proofs.Parameter.Shape

namespace ApiPrep.Parameter

/-- Parameters that the order of comparison does not tell apart agree. -/
def TiesAgree (ps : List (Option Parameter)) : Prop :=
  ∀ p q : Parameter, some p ∈ ps → some q ∈ ps → p.baseName.isSome → q.baseName.isSome →
    p.sortKey = q.sortKey → p.agrees q = true

theorem mem_shapes {ps : List (Option Parameter)} {s : Shape} :
    s ∈ shapes ps ↔ ∃ p : Parameter, (some p ∈ ps ∧ p.baseName.isSome) ∧ p.shape = s := by
  simp only [shapes, List.mem_map, List.mem_filter, List.mem_filterMap, id, exists_eq_right]

theorem tiesAgree_iff_shapes {ps : List (Option Parameter)} :
    TiesAgree ps ↔ ∀ a ∈ shapes ps, ∀ b ∈ shapes ps, a.key = b.key → a = b := by
  constructor
  · intro h a ha b hb hk
    obtain ⟨p, ⟨hp, hpn⟩, rfl⟩ := mem_shapes.1 ha
    obtain ⟨q, ⟨hq, hqn⟩, rfl⟩ := mem_shapes.1 hb
    exact agrees_iff_shape.1 (h p q hp hq hpn hqn hk)
  · intro h p q hp hq hpn hqn hk
    exact agrees_iff_shape.2 (h _ (mem_shapes.2 ⟨p, ⟨hp, hpn⟩, rfl⟩) _
      (mem_shapes.2 ⟨q, ⟨hq, hqn⟩, rfl⟩) hk)

theorem shapes_perm {ps qs : List (Option Parameter)} (h : ps.Perm qs) :
    (shapes ps).Perm (shapes qs) :=
  ((h.filterMap id).filter _).map shape

theorem shapes_cons_some {p : Parameter} (hp : p.baseName.isSome) (ps : List (Option Parameter)) :
    shapes (some p :: ps) = p.shape :: shapes ps := by
  simp only [shapes, List.filterMap_cons, id, List.filter_cons, hp, ↓reduceIte, List.map_cons]

theorem exists_perm_of_shapes {ss : List Shape} {ps : List (Option Parameter)}
    (h : ss.Perm (shapes ps)) : ∃ qs, qs.Perm ps ∧ shapes qs = ss := by
  induction ss generalizing ps with
  | nil => exact ⟨ps, .refl ps, h.nil_eq.symm⟩
  | cons s ss ih =>
    obtain ⟨p, ⟨hp, hn⟩, rfl⟩ := mem_shapes.1 (h.mem_iff.1 List.mem_cons_self)
    obtain ⟨before, after, rfl⟩ := List.append_of_mem hp
    have hmiddle : (before ++ some p :: after).Perm (some p :: (before ++ after)) :=
      List.perm_middle
    have hrest : (p.shape :: ss).Perm (p.shape :: shapes (before ++ after)) := by
      rw [← shapes_cons_some hn]
      exact h.trans (shapes_perm hmiddle)
    obtain ⟨qs, hqs, rfl⟩ := ih hrest.cons_inv
    exact ⟨some p :: qs, (hqs.cons _).trans hmiddle.symm, shapes_cons_some hn qs⟩

theorem arranged_swap_ne {a b : Shape} (hk : a.key = b.key) (hne : a ≠ b) (ss : List Shape) :
    arranged (a :: b :: ss) ≠ arranged (b :: a :: ss) := by
  intro h
  have hf := congrArg (List.filter (·.key = b.key)) h
  simp only [arranged_filter_key, List.filter_cons, hk, decide_true, ↓reduceIte,
    List.cons.injEq] at hf
  exact hne hf.1

theorem exists_perm_pair {a b : Shape} {ss : List Shape} (ha : a ∈ ss) (hb : b ∈ ss) (hne : a ≠ b) :
    ∃ rest, (a :: b :: rest).Perm ss := by
  have hb' : b ∈ ss.erase a := (List.mem_erase_of_ne hne.symm).2 hb
  refine ⟨(ss.erase a).erase b, ?_⟩
  exact ((List.perm_cons_erase hb').symm.cons a).trans (List.perm_cons_erase ha).symm

theorem exists_reordered_ne {ps qs : List (Option Parameter)} (ht : ¬ TiesAgree ps)
    (hp : (shapes ps).Perm (shapes qs)) :
    ∃ ps' ps'' qs', (ps'.Perm ps ∧ ps''.Perm ps ∧ qs'.Perm qs) ∧
      sameSet ps' qs' = true ∧ sameSet ps'' qs' = false := by
  simp only [tiesAgree_iff_shapes, not_forall] at ht
  obtain ⟨a, ha, b, hb, hk, hne⟩ := ht
  obtain ⟨rest, hrest⟩ := exists_perm_pair ha hb hne
  obtain ⟨ps', hps', hs'⟩ := exists_perm_of_shapes hrest
  obtain ⟨ps'', hps'', hs''⟩ := exists_perm_of_shapes ((List.Perm.swap a b rest).trans hrest)
  obtain ⟨qs', hqs', ht'⟩ := exists_perm_of_shapes (hrest.trans hp)
  refine ⟨ps', ps'', qs', ⟨hps', hps'', hqs'⟩, ?_, ?_⟩
  · rw [sameSet_iff_arranged, hs', ht']
  · rw [← Bool.not_eq_true, sameSet_iff_arranged, hs'', ht']
    exact (arranged_swap_ne hk hne rest).symm

theorem shapes_perm_of_sameSet {left right : List (Option Parameter)}
    (h : sameSet left right = true) : (shapes left).Perm (shapes right) := by
  have ha := sameSet_iff_arranged.1 h
  exact (arranged_perm _).symm.trans (ha ▸ arranged_perm _)

/-- Where ties agree, being the same set says that every shape occurs equally often. -/
theorem TiesAgree.sameSet_iff {left right : List (Option Parameter)} (ht : TiesAgree left) :
    sameSet left right = true ↔ (shapes left).Perm (shapes right) := by
  constructor
  · exact shapes_perm_of_sameSet
  · intro hp
    exact sameSet_iff_arranged.2 (arranged_eq_of_perm hp (tiesAgree_iff_shapes.1 ht))

theorem TiesAgree.perm {ps qs : List (Option Parameter)} (ht : TiesAgree ps) (hp : qs.Perm ps) :
    TiesAgree qs := by
  intro p q hpm hqm hpn hqn hk
  exact ht p q (hp.mem_iff.1 hpm) (hp.mem_iff.1 hqm) hpn hqn hk

theorem sameSet_eq_of_perm {left left' right right' : List (Option Parameter)}
    (h : TiesAgree left ∨ ¬ (shapes left).Perm (shapes right))
    (hl : left'.Perm left) (hr : right'.Perm right) :
    sameSet left' right' = sameSet left right := by
  have hshapes : (shapes left').Perm (shapes right') ↔ (shapes left).Perm (shapes right) :=
    ⟨fun hs => (shapes_perm hl).symm.trans (hs.trans (shapes_perm hr)),
      fun hs => (shapes_perm hl).trans (hs.trans (shapes_perm hr).symm)⟩
  rw [Bool.eq_iff_iff]
  rcases h with ht | hn
  · rw [ht.sameSet_iff, (ht.perm hl).sameSet_iff, hshapes]
  · constructor
    · intro hs
      exact absurd (hshapes.1 (shapes_perm_of_sameSet hs)) hn
    · intro hs
      exact absurd (shapes_perm_of_sameSet hs) hn

/-- The order of two lists has no part in whether they are the same set exactly if ties agree, or
if some shape occurs more often in one of them anyway; each order of a list is the same set as
the list exactly if ties agree. -/
theorem sameSet_reorder_iff (left right : List (Option Parameter)) :
    ((∀ left' right', left'.Perm left → right'.Perm right →
        sameSet left' right' = sameSet left right) ↔
      TiesAgree left ∨ ¬ (shapes left).Perm (shapes right)) ∧
    ((∀ left', left'.Perm left → sameSet left left' = true) ↔ TiesAgree left) := by
  refine ⟨⟨?_, ?_⟩, ?_, ?_⟩
  · intro h
    by_contra hc
    rw [not_or, not_not] at hc
    obtain ⟨ps, qs, rs, ⟨hps, hqs, hrs⟩, hyes, hno⟩ := exists_reordered_ne hc.1 hc.2
    have he := (h ps rs hps hrs).trans (h qs rs hqs hrs).symm
    rw [hyes, hno] at he
    cases he
  · intro h left' right' hl hr
    exact sameSet_eq_of_perm h hl hr
  · intro h
    by_contra ht
    obtain ⟨ps, qs, rs, ⟨_, hqs, hrs⟩, _, hno⟩ := exists_reordered_ne ht (.refl (shapes left))
    have hq := sameSet_iff_arranged.1 (h qs hqs)
    have hr := sameSet_iff_arranged.1 (h rs hrs)
    rw [sameSet_iff_arranged.2 (hq.symm.trans hr)] at hno
    cases hno
  · intro ht left' hl
    exact ht.sameSet_iff.2 (shapes_perm hl).symm

/-- An absent type and an empty one are sorted alike but do not agree, so that a list need not be
the same set as its reverse. -/
theorem sameSet_reverse_false :
    let absent : Parameter := { baseName := some "id" }
    let empty : Parameter := { baseName := some "id", dataType := some "" }
    [some empty, some absent].Perm [some absent, some empty] ∧
      sameSet [some absent, some empty] [some empty, some absent] = false := by
  intro absent empty
  refine ⟨.swap .., ?_⟩
  rw [← Bool.not_eq_true, sameSet_iff_arranged]
  have hk : absent.shape.key = empty.shape.key := rfl
  have hne : absent.shape ≠ empty.shape := by decide
  exact arranged_swap_ne hk hne []

end ApiPrep.Parameter
