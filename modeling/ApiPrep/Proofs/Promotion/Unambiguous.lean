import ApiPrep.Proofs.Promotion.Detect

namespace ApiPrep

variable {c : Catalog} {operations operations' : List Operation} {s : Signature} {op : Operation}

namespace Catalog

/-- No two operations fit one signature. -/
def Unambiguous (c : Catalog) (operations : List Operation) : Prop :=
  ∀ s ∈ c.signatures, operations.Pairwise fun op op' => ¬(s.fits op = true ∧ s.fits op' = true)

instance (c : Catalog) (operations : List Operation) : Decidable (c.Unambiguous operations) :=
  inferInstanceAs (Decidable (∀ s ∈ c.signatures, _))

def takes (c : Catalog) (op : Operation) : Bool := c.signatures.any (·.fits op)

theorem takes_iff : c.takes op = true ↔ ∃ s ∈ c.signatures, s.fits op = true := List.any_eq_true

theorem takes_eq_false_iff : c.takes op = false ↔ ∀ s ∈ c.signatures, s.fits op = false := by
  simp only [takes, List.any_eq_false, Bool.not_eq_true]

theorem covered_perm (hp : operations'.Perm operations) :
    c.Covered operations' ↔ c.Covered operations := by
  simp only [Covered, hp.mem_iff]

namespace Unambiguous

theorem perm (h : c.Unambiguous operations) (hp : operations'.Perm operations) :
    c.Unambiguous operations' := by
  intro s hs
  exact hp.symm.pairwise (h s hs) fun hxy hyx => hxy hyx.symm

theorem fits_before (h : c.Unambiguous operations) (hs : s ∈ c.signatures) {i j : Nat}
    (hi : i < operations.length) (hj : j < i) (hfit : s.fits operations[i] = true) :
    s.fits operations[j] = false := by
  have hpair := List.pairwise_iff_getElem.1 (h s hs) j i (Nat.lt_trans hj hi) hi hj
  rw [← Bool.not_eq_true]
  intro hfit'
  exact hpair ⟨hfit', hfit⟩

theorem findIdx_eq_iff (h : c.Unambiguous operations) (hs : s ∈ c.signatures) {i : Nat}
    (hi : i < operations.length) :
    operations.findIdx s.fits = i ↔ s.fits operations[i] = true := by
  rw [List.findIdx_eq hi]
  constructor
  · intro hfirst
    exact hfirst.1
  · intro hfit
    exact ⟨hfit, fun j hj => h.fits_before hs hi hj hfit⟩

theorem find?_eq_some_iff (h : c.Unambiguous operations) (hs : s ∈ c.signatures) :
    operations.find? s.fits = some op ↔ op ∈ operations ∧ s.fits op = true := by
  constructor
  · intro hfind
    exact ⟨List.mem_of_find?_eq_some hfind, List.find?_some hfind⟩
  · rintro ⟨hop, hfit⟩
    obtain ⟨i, hi, rfl⟩ := List.getElem_of_mem hop
    rw [List.find?_eq_some_iff_getElem]
    refine ⟨hfit, i, hi, rfl, fun j hj => ?_⟩
    rw [h.fits_before hs hi hj hfit]
    rfl

theorem find?_perm (h : c.Unambiguous operations) (hp : operations'.Perm operations)
    (hs : s ∈ c.signatures) : operations'.find? s.fits = operations.find? s.fits := by
  refine Option.ext fun op => ?_
  rw [(h.perm hp).find?_eq_some_iff hs, h.find?_eq_some_iff hs, hp.mem_iff]

theorem mem_places_iff (h : c.Unambiguous operations) {i : Nat} (hi : i < operations.length) :
    i ∈ c.places operations ↔ c.takes operations[i] = true := by
  rw [places, List.mem_map, takes_iff]
  refine exists_congr fun s => and_congr_right fun hs => ?_
  exact h.findIdx_eq_iff hs hi

theorem partitionAt_places (h : c.Unambiguous operations) :
    Promotion.partitionAt (c.places operations) 0 operations =
      (operations.filter c.takes, operations.filter fun op => !c.takes op) := by
  refine Promotion.partitionAt_eq_filter fun i op hop => ?_
  obtain ⟨hi, rfl⟩ := List.getElem?_eq_some_iff.1 hop
  rw [Nat.zero_add]
  exact h.mem_places_iff hi

end Unambiguous

end Catalog

namespace Promotion

variable {a : Affixes} {p q : Promotion}

theorem parts_of_unambiguous (h : c.Unambiguous operations)
    (hp : (detect c a operations).value = some p) :
    p.removed = operations.filter c.takes ∧
      p.remaining = operations.filter fun op => !c.takes op := by
  obtain ⟨_, _, _, _, rfl⟩ := detect_eq_some_iff.1 hp
  have hparts := h.partitionAt_places
  rw [partitionAt_eq] at hparts
  exact ⟨congrArg Prod.fst hparts, congrArg Prod.snd hparts⟩

/-- Where no two operations fit one signature, the order of a group has no part in whether it is
promoted, nor in the entity and in which operations are taken; both parts have the order of the
group. -/
theorem detect_perm (h : c.Unambiguous operations) (hperm : operations'.Perm operations) :
    ((∃ q, (detect c a operations').value = some q) ↔
      ∃ p, (detect c a operations).value = some p) ∧
    ∀ p q, (detect c a operations).value = some p → (detect c a operations').value = some q →
      q.entityType = p.entityType ∧ q.entityName = p.entityName ∧
      q.removed.Perm p.removed ∧ q.remaining.Perm p.remaining ∧
      Interleaved q.removed q.remaining operations' := by
  have hfind := h.find?_perm hperm c.creationSignature_mem
  refine ⟨?_, ?_⟩
  · rw [exists_detect_iff, exists_detect_iff, Catalog.covered_perm hperm, hfind]
  · intro p q hp hq
    have hparts := parts_of_unambiguous h hp
    have hparts' := parts_of_unambiguous (h.perm hperm) hq
    have hremoved : q.removed.Perm p.removed := by
      rw [hparts.1, hparts'.1]
      exact hperm.filter _
    have hremaining : q.remaining.Perm p.remaining := by
      rw [hparts.2, hparts'.2]
      exact hperm.filter _
    obtain ⟨_, creation, hc, _, rfl⟩ := detect_eq_some_iff.1 hp
    obtain rfl := eq_promotedBy hq (hfind.trans hc)
    exact ⟨rfl, rfl, hremoved, hremaining, removed_interleaved c a operations' creation⟩

def widgetCatalog : Catalog where
  signatures := [⟨"add", "GET", false, [], []⟩, ⟨"list", "GET", false, [], []⟩]
  creation := "add"
  nodup := by decide
  creation_mem := by decide

def addWidget : Operation where
  operationId := "add"
  httpMethod := "GET"
  path := "/Api/widgets/Add"
  returnType := some "Widget"

def listWidgets : Operation where
  operationId := "list"
  httpMethod := "GET"
  path := "/Api/widgets"

def archiveWidget : Operation where
  operationId := "archive"
  httpMethod := "POST"
  path := "/Api/widgets/Archive"

theorem detect_perm_widgets :
    widgetCatalog.Unambiguous [addWidget, archiveWidget, listWidgets] ∧
    [listWidgets, archiveWidget, addWidget].Perm [addWidget, archiveWidget, listWidgets] ∧
    ∃ q, (detect widgetCatalog {} [listWidgets, archiveWidget, addWidget]).value = some q ∧
      q.entityType = "Widget" ∧ q.entityName = "widgets" ∧
      q.removed.Perm [addWidget, listWidgets] ∧ q.remaining.Perm [archiveWidget] ∧
      Interleaved q.removed q.remaining [listWidgets, archiveWidget, addWidget] := by
  have hlone : widgetCatalog.Unambiguous [addWidget, archiveWidget, listWidgets] := by
    decide +kernel
  have hperm : [listWidgets, archiveWidget, addWidget].Perm
      [addWidget, archiveWidget, listWidgets] := by decide +kernel
  have hpromoted : (detect widgetCatalog {} [addWidget, archiveWidget, listWidgets]).value =
      some ⟨"Widget", "widgets", [addWidget, listWidgets], [archiveWidget]⟩ := by decide +kernel
  obtain ⟨hiff, hsame⟩ := detect_perm (a := {}) hlone hperm
  obtain ⟨q, hq⟩ := hiff.2 ⟨_, hpromoted⟩
  exact ⟨hlone, hperm, q, hq, hsame _ q hpromoted hq⟩

end Promotion

end ApiPrep
