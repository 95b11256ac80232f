import ApiPrep.Proofs.Parameter.Order
import Mathlib.Data.Multiset.Defs

namespace ApiPrep.Parameter

def named (entry : Option Parameter) : Bool := (entry.bind baseName).isSome

/-- Parameters that differ at most in what clients call them and in what is said about them. -/
def Relabelled (p q : Parameter) : Prop :=
  ∃ name text, q = { p with paramName := name, description := text }

def shape? (entry : Option Parameter) : Option Shape :=
  entry.bind fun p => if p.baseName.isSome then some p.shape else none

theorem shapes_eq_filterMap (ps : List (Option Parameter)) : shapes ps = ps.filterMap shape? := by
  rw [shapes, List.filter_filterMap, List.map_filterMap]
  refine List.filterMap_congr fun entry _ => ?_
  cases entry with
  | none => rfl
  | some p =>
    rw [shape?, Option.bind_some, id, Option.filter_some]
    split <;> rfl

theorem shape?_of_not_named {entry : Option Parameter} (h : named entry = false) :
    shape? entry = none := by
  cases entry with
  | none => rfl
  | some p => exact if_neg (Bool.not_eq_true _ ▸ h)

theorem shapes_append (ps qs : List (Option Parameter)) :
    shapes (ps ++ qs) = shapes ps ++ shapes qs := by
  simp only [shapes_eq_filterMap, List.filterMap_append]

theorem shapes_cons_of_not_named {entry : Option Parameter} (h : named entry = false)
    (ps : List (Option Parameter)) : shapes (entry :: ps) = shapes ps := by
  rw [shapes_eq_filterMap, shapes_eq_filterMap, List.filterMap_cons, shape?_of_not_named h]

theorem shapes_filter_named (ps : List (Option Parameter)) :
    shapes (ps.filter named) = shapes ps := by
  rw [shapes_eq_filterMap, shapes_eq_filterMap, List.filterMap_filter]
  refine List.filterMap_congr fun entry _ => ?_
  cases h : named entry with
  | true => rfl
  | false => exact (shape?_of_not_named h).symm

theorem shape?_relabelled {entry entry' : Option Parameter}
    (h : Option.Rel Relabelled entry entry') : shape? entry' = shape? entry := by
  cases h with
  | none => rfl
  | some hpq =>
    obtain ⟨name, text, rfl⟩ := hpq
    rfl

theorem shapes_relabelled {ps qs : List (Option Parameter)}
    (h : List.Forall₂ (Option.Rel Relabelled) ps qs) : shapes qs = shapes ps := by
  rw [shapes_eq_filterMap, shapes_eq_filterMap]
  induction h with
  | nil => rfl
  | cons hpq _ ih => rw [List.filterMap_cons, List.filterMap_cons, shape?_relabelled hpq, ih]

theorem sameSet_congr {left left' right right' : List (Option Parameter)}
    (hl : shapes left' = shapes left) (hr : shapes right' = shapes right) :
    sameSet left' right' = sameSet left right := by
  rw [Bool.eq_iff_iff, sameSet_iff_arranged, sameSet_iff_arranged, hl, hr]

theorem baseName_eq_of_sortKey {p q : Parameter} (hp : p.baseName.isSome) (hq : q.baseName.isSome)
    (hkey : p.sortKey = q.sortKey) : p.baseName = q.baseName := by
  obtain ⟨name, hname⟩ := Option.isSome_iff_exists.1 hp
  obtain ⟨name', hname'⟩ := Option.isSome_iff_exists.1 hq
  have hbase : p.baseName.getD "" = q.baseName.getD "" := congrArg Prod.fst hkey
  rw [hname, hname', Option.getD_some, Option.getD_some] at hbase
  rw [hname, hname', hbase]

theorem shape_eq_iff_of_sortKey {p q : Parameter} (hp : p.baseName.isSome) (hq : q.baseName.isSome)
    (hkey : p.sortKey = q.sortKey) :
    p.shape = q.shape ↔ p.dataType = q.dataType ∧ p.dataFormat = q.dataFormat := by
  have hbase := baseName_eq_of_sortKey hp hq hkey
  have hrequired : p.required = q.required := congrArg (fun k => k.2.2.2) hkey
  simp only [shape, Shape.mk.injEq, hbase, hrequired, true_and, and_true]

theorem tiesAgree_iff_types {ps : List (Option Parameter)} :
    TiesAgree ps ↔ ∀ p q : Parameter, some p ∈ ps → some q ∈ ps →
      p.baseName.isSome → q.baseName.isSome → p.sortKey = q.sortKey →
        p.dataType = q.dataType ∧ p.dataFormat = q.dataFormat := by
  constructor
  · intro h p q hp hq hpn hqn hkey
    exact (shape_eq_iff_of_sortKey hpn hqn hkey).1 (agrees_iff_shape.1 (h p q hp hq hpn hqn hkey))
  · intro h p q hp hq hpn hqn hkey
    exact agrees_iff_shape.2 ((shape_eq_iff_of_sortKey hpn hqn hkey).2 (h p q hp hq hpn hqn hkey))

/-- Lists that are the same set have the same named parameters, each equally often. The converse
holds where no two named parameters of a list are sorted alike in spite of different types or
formats. Entries without an identity play no part, nor do labels. -/
theorem sameSet_decides_multiset (left right : List (Option Parameter)) :
    (sameSet left right = true → (shapes left : Multiset Shape) = shapes right) ∧
    ((∀ ps ∈ [left, right], ∀ p q : Parameter, some p ∈ ps → some q ∈ ps →
        p.baseName.isSome → q.baseName.isSome → p.sortKey = q.sortKey →
        p.dataType = q.dataType ∧ p.dataFormat = q.dataFormat) →
      (shapes left : Multiset Shape) = shapes right → sameSet left right = true) ∧
    sameSet (left.filter named) (right.filter named) = sameSet left right ∧
    ∀ left' right', List.Forall₂ (Option.Rel Relabelled) left left' →
      List.Forall₂ (Option.Rel Relabelled) right right' →
      sameSet left' right' = sameSet left right := by
  refine ⟨?_, ?_, ?_, ?_⟩
  · intro h
    exact Multiset.coe_eq_coe.2 (shapes_perm_of_sameSet h)
  · intro htypes h
    have hties := tiesAgree_iff_types.2 (htypes left List.mem_cons_self)
    exact hties.sameSet_iff.2 (Multiset.coe_eq_coe.1 h)
  · exact sameSet_congr (shapes_filter_named left) (shapes_filter_named right)
  · intro left' right' hl hr
    exact sameSet_congr (shapes_relabelled hl) (shapes_relabelled hr)

def paging : List (Option Parameter) :=
  [some { baseName := some "size", dataType := some "number" },
    some { baseName := some "page", dataType := some "number", required := true },
    some { baseName := some "size", dataType := some "number" }]

def pagingBesides : List (Option Parameter) :=
  [none, some { baseName := some "size", dataType := some "number" },
    some { dataType := some "string" },
    some { baseName := some "size", dataType := some "number" },
    some { baseName := some "page", dataType := some "number", required := true }]

theorem sameSet_decides_multiset_paging :
    (shapes paging : Multiset Shape) = shapes pagingBesides ∧
    sameSet paging pagingBesides = true ∧
    sameSet (paging.map (Option.map fun p => { p with paramName := p.baseName }))
      pagingBesides = true := by
  obtain ⟨hback, hsame, -, hlabels⟩ := sameSet_decides_multiset paging pagingBesides
  have hties : ∀ ps ∈ [paging, pagingBesides], TiesAgree ps := by
    intro ps hps
    exact tiesAgree_iff_shapes.2 (by revert ps; decide +kernel)
  have hperm : (shapes paging : Multiset Shape) = shapes pagingBesides :=
    Multiset.coe_eq_coe.2 (by decide +kernel)
  have hyes := hsame (fun ps hps => tiesAgree_iff_types.1 (hties ps hps)) hperm
  have hlabel : List.Forall₂ (Option.Rel Relabelled) paging
      (paging.map (Option.map fun p => { p with paramName := p.baseName })) :=
    .cons (.some ⟨_, _, rfl⟩) (.cons (.some ⟨_, _, rfl⟩) (.cons (.some ⟨_, _, rfl⟩) .nil))
  have hkept : List.Forall₂ (Option.Rel Relabelled) pagingBesides pagingBesides := by
    refine List.forall₂_same.2 fun entry _ => ?_
    cases entry with
    | none => exact .none
    | some p => exact .some ⟨p.paramName, p.description, rfl⟩
  exact ⟨hback hyes, hyes, (hlabels _ _ hlabel hkept).trans hyes⟩

end ApiPrep.Parameter
