import ApiPrep.Proofs.Catalog.Claims
import ApiPrep.Proofs.Promotion.Partition

namespace ApiPrep

variable {c : Catalog} {operations : List Operation}

namespace Catalog

def Covered (c : Catalog) (operations : List Operation) : Prop :=
  ∀ s ∈ c.signatures, ∃ op ∈ operations, s.fits op = true

def places (c : Catalog) (operations : List Operation) : List Nat :=
  c.signatures.map fun s => operations.findIdx s.fits

theorem name_inj {s t : Signature} (hs : s ∈ c.signatures) (ht : t ∈ c.signatures)
    (h : s.name = t.name) : s = t :=
  List.inj_on_of_nodup_map c.nodup hs ht h

theorem get?_creation (c : Catalog) : c.get? c.creation = some c.creationSignature :=
  (Option.some_get c.get?_creation_isSome).symm

theorem creationSignature_mem (c : Catalog) : c.creationSignature ∈ c.signatures :=
  List.mem_of_find?_eq_some c.get?_creation

theorem mem_claimed_names {name : Text} :
    name ∈ (c.claims operations).value.map Claim.signature ↔
      ∃ s ∈ c.signatures, (∃ op ∈ operations, s.fits op = true) ∧ s.name = name := by
  simp only [claims_value, List.mem_map, List.mem_filterMap, firstFit?, Option.map_eq_some_iff]
  constructor
  · rintro ⟨_, ⟨s, hs, i, hi, rfl⟩, rfl⟩
    obtain ⟨hlt, hfit, _⟩ := List.findIdx?_eq_some_iff_getElem.1 hi
    exact ⟨s, hs, ⟨_, List.getElem_mem hlt, hfit⟩, rfl⟩
  · rintro ⟨s, hs, hfit, rfl⟩
    exact ⟨_, ⟨s, hs, _, List.findIdx?_eq_some_of_exists hfit, rfl⟩, rfl⟩

namespace Covered

theorem claims_value (h : c.Covered operations) :
    (c.claims operations).value =
      c.signatures.map fun s => ⟨s.name, operations.findIdx s.fits⟩ := by
  rw [Catalog.claims_value, ← List.filterMap_eq_map]
  refine List.filterMap_congr fun s hs => ?_
  rw [firstFit?, List.findIdx?_eq_some_of_exists (h s hs)]
  rfl

theorem claimed_places (h : c.Covered operations) :
    (c.claims operations).value.map Claim.index = c.places operations := by
  rw [h.claims_value, List.map_map]
  rfl

theorem places_lt (h : c.Covered operations) :
    ∀ i ∈ c.places operations, i < operations.length := by
  intro i hi
  obtain ⟨s, hs, rfl⟩ := List.mem_map.1 hi
  exact List.findIdx_lt_length_of_exists (h s hs)

theorem places_nodup (h : c.Covered operations) : (c.places operations).Nodup := by
  refine List.Nodup.map_on ?_ (List.Nodup.of_map _ c.nodup)
  intro s hs t ht he
  have hlt := List.findIdx_lt_length_of_exists (h s hs)
  have hfs : s.fits operations[operations.findIdx s.fits] = true := List.findIdx_getElem
  have hft : t.fits operations[operations.findIdx s.fits] = true := by
    simp only [he]
    exact List.findIdx_getElem
  exact name_inj hs ht (Signature.fits_unique hfs hft)

end Covered

end Catalog

namespace Promotion

variable {a : Affixes}

theorem unclaimed_eq_nil_iff :
    unclaimed c (c.claims operations).value = [] ↔ c.Covered operations := by
  simp only [unclaimed, List.filter_eq_nil_iff, List.contains_eq_mem, Bool.not_eq_true',
    decide_eq_false_iff_not, not_not, List.forall_mem_map, Catalog.mem_claimed_names]
  constructor
  · intro h s hs
    obtain ⟨t, ht, hfit, hn⟩ := h s hs
    exact Catalog.name_inj ht hs hn ▸ hfit
  · intro h s hs
    exact ⟨s, hs, h s hs, rfl⟩

theorem creationOf?_of_covered (h : c.Covered operations) :
    creationOf? c operations (c.claims operations).value =
      operations.find? c.creationSignature.fits := by
  have hfind : (c.claims operations).value.find? (·.signature = c.creation) =
      some ⟨c.creationSignature.name, operations.findIdx c.creationSignature.fits⟩ := by
    rw [h.claims_value, List.find?_map]
    exact congrArg (Option.map _) c.get?_creation
  rw [creationOf?, hfind, List.find?_eq_getElem?_findIdx]
  rfl

def promotedBy (c : Catalog) (a : Affixes) (operations : List Operation) (creation : Operation) :
    Promotion where
  entityType := creation.returnType.getD ""
  entityName := entityNameOf a creation.path
  removed := itemsAt (c.places operations) 0 operations
  remaining := itemsBeside (c.places operations) 0 operations

theorem detect_of_not_covered (h : ¬ c.Covered operations) :
    (detect c a operations).value = none := by
  rw [detect, Traced.bind_eq]
  cases hu : unclaimed c (c.claims operations).value with
  | nil => exact absurd (unclaimed_eq_nil_iff.1 hu) h
  | cons name names =>
    dsimp only
    split <;> rfl

theorem detect_of_covered (h : c.Covered operations) {creation : Operation}
    (hc : operations.find? c.creationSignature.fits = some creation) :
    (detect c a operations).value =
      if creation.returnType.getD "" = "" then none
      else some (promotedBy c a operations creation) := by
  rw [detect, Traced.bind_eq]
  simp only [unclaimed_eq_nil_iff.2 h, creationOf?_of_covered h, hc, h.claimed_places,
    partitionAt_eq]
  split <;> rfl

/-- The promotions of a group: there is none unless every signature has an operation and the
first that creates entities returns one. -/
theorem detect_eq_some_iff {p : Promotion} :
    (detect c a operations).value = some p ↔
      c.Covered operations ∧ ∃ creation, operations.find? c.creationSignature.fits = some creation ∧
        creation.returnType.getD "" ≠ "" ∧ promotedBy c a operations creation = p := by
  by_cases h : c.Covered operations
  · obtain ⟨creation, hc⟩ : ∃ creation, operations.find? c.creationSignature.fits = some creation :=
      Option.isSome_iff_exists.1 (List.find?_isSome.2 (h _ c.creationSignature_mem))
    rw [detect_of_covered h hc]
    split
    · next he =>
      simp only [reduceCtorEq, hc, Option.some.injEq, exists_eq_left', he, ne_eq, not_true_eq_false,
        false_and, and_false]
    · next he =>
      simp only [h, hc, Option.some.injEq, exists_eq_left', he, ne_eq, not_false_eq_true, true_and]
  · simp only [detect_of_not_covered h, h, reduceCtorEq, false_and]

theorem exists_detect_iff :
    (∃ p, (detect c a operations).value = some p) ↔
      c.Covered operations ∧ ∃ creation, operations.find? c.creationSignature.fits = some creation ∧
        creation.returnType.getD "" ≠ "" := by
  simp only [detect_eq_some_iff]
  constructor
  · rintro ⟨_, hcov, creation, hc, hr, _⟩
    exact ⟨hcov, creation, hc, hr⟩
  · rintro ⟨hcov, creation, hc, hr⟩
    exact ⟨_, hcov, creation, hc, hr, rfl⟩

theorem eq_promotedBy {p : Promotion} {creation : Operation}
    (hp : (detect c a operations).value = some p)
    (hc : operations.find? c.creationSignature.fits = some creation) :
    p = promotedBy c a operations creation := by
  obtain ⟨_, creation', hc', _, rfl⟩ := detect_eq_some_iff.1 hp
  rw [hc] at hc'
  rw [Option.some.inj hc']

theorem length_removed (h : c.Covered operations) (creation : Operation) :
    (promotedBy c a operations creation).removed.length = c.signatures.length :=
  (length_itemsAt h.places_nodup h.places_lt).trans (List.length_map _)

theorem removed_interleaved (c : Catalog) (a : Affixes) (operations : List Operation)
    (creation : Operation) :
    Interleaved (promotedBy c a operations creation).removed
      (promotedBy c a operations creation).remaining operations := by
  have h := partitionAt_interleaved (c.places operations) 0 operations
  rwa [partitionAt_eq] at h

/-- A group is promoted iff every signature has an operation that fits it and the first operation
that creates entities returns one. The promotion takes the first operation that fits, for each
signature, and nothing else: the others stay, and both keep their order. -/
theorem detect_all_or_nothing (c : Catalog) (a : Affixes) (operations : List Operation) :
    ((∃ p, (detect c a operations).value = some p) ↔
      (∀ s ∈ c.signatures, ∃ op ∈ operations, s.fits op = true) ∧
        ∃ creation, operations.find? c.creationSignature.fits = some creation ∧
          creation.returnType.getD "" ≠ "") ∧
    ∀ p, (detect c a operations).value = some p →
      (∃ creation, operations.find? c.creationSignature.fits = some creation ∧
        creation.returnType = some p.entityType ∧
        p.entityName = entityNameOf a creation.path) ∧
      p.removed = (operations.zipIdx.filter fun item => item.2 ∈ c.places operations).map Prod.fst ∧
      p.removed.length = c.signatures.length ∧
      p.remaining =
        (operations.zipIdx.filter fun item => item.2 ∉ c.places operations).map Prod.fst ∧
      Interleaved p.removed p.remaining operations := by
  constructor
  · constructor
    · rintro ⟨p, hp⟩
      obtain ⟨hcov, creation, hc, hr, _⟩ := detect_eq_some_iff.1 hp
      exact ⟨hcov, creation, hc, hr⟩
    · rintro ⟨hcov, creation, hc, hr⟩
      exact ⟨_, detect_eq_some_iff.2 ⟨hcov, creation, hc, hr, rfl⟩⟩
  · intro p hp
    obtain ⟨hcov, creation, hc, hr, rfl⟩ := detect_eq_some_iff.1 hp
    refine ⟨⟨creation, hc, ?_, rfl⟩, rfl, ?_, rfl, ?_⟩
    · cases hreturn : creation.returnType with
      | none => exact absurd (by rw [hreturn]; rfl) hr
      | some entityType => simp only [promotedBy, hreturn, Option.getD_some]
    · exact length_removed hcov creation
    · exact removed_interleaved c a operations creation

end Promotion

end ApiPrep
