import ApiPrep.Proofs.Promotion.Unambiguous

namespace ApiPrep

variable {c : Catalog} {operations before after : List Operation} {op creation : Operation}

namespace Catalog

theorem covered_insert (hop : ∀ s ∈ c.signatures, s.fits op = false) :
    c.Covered (before ++ op :: after) ↔ c.Covered (before ++ after) := by
  refine forall₂_congr fun s hs => ?_
  simp only [List.mem_append, List.mem_cons]
  constructor
  · rintro ⟨op', hb | rfl | ha, hfit⟩
    · exact ⟨op', .inl hb, hfit⟩
    · rw [hop s hs] at hfit
      cases hfit
    · exact ⟨op', .inr ha, hfit⟩
  · rintro ⟨op', hb | ha, hfit⟩
    · exact ⟨op', .inl hb, hfit⟩
    · exact ⟨op', .inr (.inr ha), hfit⟩

theorem find?_insert {s : Signature} (hop : s.fits op = false) :
    (before ++ op :: after).find? s.fits = (before ++ after).find? s.fits := by
  rw [List.find?_append, List.find?_append, List.find?_cons, hop]

theorem places_insert (hop : ∀ s ∈ c.signatures, s.fits op = false) :
    c.places (before ++ op :: after) =
      (c.places (before ++ after)).map (Promotion.past before.length) := by
  rw [places, places, List.map_map]
  refine List.map_congr_left fun s hs => ?_
  exact Promotion.findIdx_insert (hop s hs) before after

theorem Unambiguous.not_covered_of_delete (h : c.Unambiguous (before ++ op :: after))
    (hop : c.takes op = true) : ¬c.Covered (before ++ after) := by
  obtain ⟨s, hs, hfit⟩ := takes_iff.1 hop
  have hlone := (List.pairwise_middle fun hxy hyx => hxy hyx.symm).1 (h s hs)
  intro hcov
  obtain ⟨op', hop', hfit'⟩ := hcov s hs
  exact (List.pairwise_cons.1 hlone).1 op' hop' ⟨hfit, hfit'⟩

theorem not_covered_of_forall (h : ∀ op ∈ operations, c.takes op = false) :
    ¬c.Covered operations := by
  intro hcov
  obtain ⟨op, hop, hfit⟩ := hcov _ c.creationSignature_mem
  rw [takes_eq_false_iff.1 (h op hop) _ c.creationSignature_mem] at hfit
  cases hfit

theorem claims_eq_nil_of_forall (h : ∀ op ∈ operations, c.takes op = false) :
    (c.claims operations).value = [] := by
  rw [claims_value, List.filterMap_eq_nil_iff]
  intro s hs
  have hnone : operations.findIdx? s.fits = none :=
    List.findIdx?_eq_none_iff.2 fun op hop => takes_eq_false_iff.1 (h op hop) s hs
  rw [firstFit?, hnone, Option.map_none]

end Catalog

namespace Promotion

variable {a : Affixes} {p q : Promotion}

/-- A promotion of `before ++ op :: after` that keeps `op` besides what another one, of
`before ++ after`, keeps of `before` and of `after`, and agrees with it in all else. -/
structure KeepsAlso (c : Catalog) (before : List Operation) (op : Operation)
    (after : List Operation) (p q : Promotion) : Prop where
  entityType : q.entityType = p.entityType
  entityName : q.entityName = p.entityName
  removed : q.removed = p.removed
  remaining : ∃ kept kept', kept = itemsBeside (c.places (before ++ after)) 0 before ∧
    kept' = itemsBeside (c.places (before ++ after)) before.length after ∧
    p.remaining = kept ++ kept' ∧ q.remaining = kept ++ op :: kept'

theorem promotedBy_parts (c : Catalog) (a : Affixes) (operations : List Operation)
    (creation : Operation) :
    ((promotedBy c a operations creation).removed, (promotedBy c a operations creation).remaining) =
      partitionAt (c.places operations) 0 operations := (partitionAt_eq _ _ _).symm

theorem promotedBy_insert (hop : ∀ s ∈ c.signatures, s.fits op = false) :
    KeepsAlso c before op after (promotedBy c a (before ++ after) creation)
      (promotedBy c a (before ++ op :: after) creation) := by
  have hparts := promotedBy_parts c a (before ++ after) creation
  have hparts' := promotedBy_parts c a (before ++ op :: after) creation
  rw [partitionAt_append, Nat.zero_add, partitionAt_eq, partitionAt_eq, Prod.mk.injEq] at hparts
  rw [Catalog.places_insert hop, partitionAt_insert, partitionAt_eq, partitionAt_eq,
    Prod.mk.injEq] at hparts'
  exact ⟨rfl, rfl, hparts'.1.trans hparts.1.symm, _, _, rfl, rfl, hparts.2, hparts'.2⟩

/-- Operations that fit no signature are kept where they stand and change nothing else. Where no two
operations fit one signature, a promotion needs each operation that it takes, and finds nothing to
take in what it keeps. -/
theorem detect_rests_on_fitting (c : Catalog) (a : Affixes) :
    (∀ before op after, (∀ s ∈ c.signatures, s.fits op = false) →
      ((∃ q, (detect c a (before ++ op :: after)).value = some q) ↔
        ∃ p, (detect c a (before ++ after)).value = some p) ∧
      ∀ p q, (detect c a (before ++ after)).value = some p →
        (detect c a (before ++ op :: after)).value = some q → KeepsAlso c before op after p q) ∧
    ∀ operations p, c.Unambiguous operations → (detect c a operations).value = some p →
      (∀ before op after, operations = before ++ op :: after → op ∈ p.removed →
        (detect c a (before ++ after)).value = none) ∧
      (c.claims p.remaining).value = [] ∧ (detect c a p.remaining).value = none := by
  refine ⟨?_, ?_⟩
  · intro before op after hop
    have hfind : (before ++ op :: after).find? c.creationSignature.fits =
        (before ++ after).find? c.creationSignature.fits :=
      Catalog.find?_insert (hop _ c.creationSignature_mem)
    refine ⟨?_, ?_⟩
    · rw [exists_detect_iff, exists_detect_iff, Catalog.covered_insert hop, hfind]
    · intro p q hp hq
      obtain ⟨_, creation, hc, _, rfl⟩ := detect_eq_some_iff.1 hp
      obtain rfl := eq_promotedBy hq (hfind.trans hc)
      exact promotedBy_insert hop
  · intro operations p h hp
    obtain ⟨hremoved, hremaining⟩ := parts_of_unambiguous h hp
    have hkept : ∀ op ∈ p.remaining, c.takes op = false := by
      intro op hop
      rw [hremaining, List.mem_filter, Bool.not_eq_true'] at hop
      exact hop.2
    refine ⟨?_, Catalog.claims_eq_nil_of_forall hkept,
      detect_of_not_covered (Catalog.not_covered_of_forall hkept)⟩
    rintro before op after rfl hop
    rw [hremoved, List.mem_filter] at hop
    exact detect_of_not_covered (h.not_covered_of_delete hop.2)

theorem detect_rests_on_fitting_widgets :
    (∀ s ∈ widgetCatalog.signatures, s.fits archiveWidget = false) ∧
    (∃ q, (detect widgetCatalog {} [addWidget, archiveWidget, listWidgets]).value = some q ∧
      KeepsAlso widgetCatalog [addWidget] archiveWidget [listWidgets]
        ⟨"Widget", "widgets", [addWidget, listWidgets], []⟩ q) ∧
    widgetCatalog.Unambiguous [addWidget, listWidgets] ∧
    (detect widgetCatalog {} [addWidget]).value = none := by
  obtain ⟨hinsert, hdelete⟩ := detect_rests_on_fitting widgetCatalog {}
  have hpromoted : (detect widgetCatalog {} [addWidget, listWidgets]).value =
      some ⟨"Widget", "widgets", [addWidget, listWidgets], []⟩ := by decide +kernel
  have hstays : ∀ s ∈ widgetCatalog.signatures, s.fits archiveWidget = false := by decide +kernel
  have hlone : widgetCatalog.Unambiguous [addWidget, listWidgets] := by decide +kernel
  obtain ⟨hiff, hkeeps⟩ := hinsert [addWidget] archiveWidget [listWidgets] hstays
  obtain ⟨q, hq⟩ := hiff.2 ⟨_, hpromoted⟩
  have hlast : listWidgets ∈ [addWidget, listWidgets] := by decide
  exact ⟨hstays, ⟨q, hq, hkeeps _ q hpromoted hq⟩, hlone,
    (hdelete _ _ hlone hpromoted).1 [addWidget] listWidgets [] rfl hlast⟩

end Promotion

end ApiPrep
