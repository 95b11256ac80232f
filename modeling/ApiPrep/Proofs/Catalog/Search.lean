import ApiPrep.Proofs.Catalog.Claims
import Mathlib.Data.List.Nodup
import Mathlib.Data.List.Perm.Basic

namespace ApiPrep.Catalog

def place? (claims : List Claim) (name : Text) : Option Nat :=
  (claims.find? (·.signature = name)).map Claim.index

def FirstFit (operations : List Operation) (s : Signature) (i : Nat) : Prop :=
  (∃ op, operations[i]? = some op ∧ s.fits op = true) ∧
    ∀ j < i, ∀ op, operations[j]? = some op → s.fits op = false

variable {c d : Catalog} {operations : List Operation} {claims : List Claim} {s : Signature}
  {name : Text} {i : Nat}

theorem firstFit_iff : FirstFit operations s i ↔ operations.findIdx? s.fits = some i := by
  rw [List.findIdx?_eq_some_iff_getElem]
  constructor
  · rintro ⟨⟨op, hop, hfit⟩, hbefore⟩
    obtain ⟨hlt, rfl⟩ := List.getElem?_eq_some_iff.1 hop
    refine ⟨hlt, hfit, fun j hj => ?_⟩
    rw [hbefore j hj _ (List.getElem?_eq_getElem (Nat.lt_trans hj hlt))]
    exact Bool.false_ne_true
  · rintro ⟨hlt, hfit, hbefore⟩
    refine ⟨⟨_, List.getElem?_eq_getElem hlt, hfit⟩, fun j hj op hop => ?_⟩
    obtain ⟨_, rfl⟩ := List.getElem?_eq_some_iff.1 hop
    exact Bool.eq_false_iff.2 (hbefore j hj)

theorem place?_eq_some_iff (hn : (claims.map Claim.signature).Nodup) :
    place? claims name = some i ↔ ⟨name, i⟩ ∈ claims := by
  rw [place?, Option.map_eq_some_iff]
  constructor
  · rintro ⟨claim, hfind, rfl⟩
    have hname := List.find?_some hfind
    rw [← of_decide_eq_true hname]
    exact List.mem_of_find?_eq_some hfind
  · intro hmem
    have hsome : (claims.find? (·.signature = name)).isSome :=
      List.find?_isSome.2 ⟨_, hmem, decide_eq_true rfl⟩
    obtain ⟨claim, hfind⟩ := Option.isSome_iff_exists.1 hsome
    have hname := List.find?_some hfind
    have he := List.inj_on_of_nodup_map hn (List.mem_of_find?_eq_some hfind) hmem
      (of_decide_eq_true hname)
    exact ⟨claim, hfind, congrArg Claim.index he⟩

theorem mem_claims_iff {claim : Claim} :
    claim ∈ (c.claims operations).value ↔
      ∃ s ∈ c.signatures, FirstFit operations s claim.index ∧ s.name = claim.signature := by
  simp only [claims_value, List.mem_filterMap, firstFit?, Option.map_eq_some_iff, firstFit_iff]
  constructor
  · rintro ⟨s, hs, i, hi, rfl⟩
    exact ⟨s, hs, hi, rfl⟩
  · rintro ⟨s, hs, hi, hname⟩
    exact ⟨s, hs, claim.index, hi, by rw [hname]⟩

theorem firstFits_names_sublist (operations : List Operation) (signatures : List Signature) :
    ((signatures.filterMap (firstFit? operations)).map Claim.signature).Sublist
      (signatures.map Signature.name) := by
  induction signatures with
  | nil => exact List.Sublist.slnil
  | cons s rest ih =>
    rw [List.filterMap_cons, firstFit?]
    cases operations.findIdx? s.fits with
    | none => exact ih.cons s.name
    | some i => exact ih.cons_cons s.name

theorem claims_names_nodup (c : Catalog) (operations : List Operation) :
    ((c.claims operations).value.map Claim.signature).Nodup := by
  rw [claims_value]
  exact c.nodup.sublist (firstFits_names_sublist operations c.signatures)

theorem place?_claims_iff :
    place? (c.claims operations).value name = some i ↔
      ∃ s ∈ c.signatures, s.name = name ∧ FirstFit operations s i := by
  rw [place?_eq_some_iff (claims_names_nodup c operations), mem_claims_iff]
  exact exists_congr fun s => and_congr_right fun _ => and_comm

theorem place?_claims_eq_none_iff (hs : s ∈ c.signatures) :
    place? (c.claims operations).value s.name = none ↔
      ∀ op ∈ operations, s.fits op = false := by
  rw [← List.findIdx?_eq_none_iff, Option.eq_none_iff_forall_ne_some,
    Option.eq_none_iff_forall_ne_some]
  refine forall_congr' fun i => not_congr ?_
  rw [place?_claims_iff, ← firstFit_iff]
  constructor
  · rintro ⟨t, ht, hname, hfit⟩
    exact List.inj_on_of_nodup_map c.nodup ht hs hname ▸ hfit
  · intro hfit
    exact ⟨s, hs, rfl, hfit⟩

theorem claims_places_nodup (c : Catalog) (operations : List Operation) :
    ((c.claims operations).value.map Claim.index).Nodup := by
  refine (List.Nodup.of_map _ (claims_names_nodup c operations)).map_on ?_
  intro claim hclaim other hother he
  obtain ⟨s, _, ⟨⟨op, hop, hfit⟩, _⟩, hs⟩ := mem_claims_iff.1 hclaim
  obtain ⟨t, _, ⟨⟨op', hop', hfit'⟩, _⟩, ht⟩ := mem_claims_iff.1 hother
  have hsame : op = op' := Option.some.inj (hop.symm.trans (he ▸ hop'))
  have hname := Signature.fits_unique hfit (hsame ▸ hfit')
  have hsignature : claim.signature = other.signature := hs.symm.trans (hname.trans ht)
  cases claim
  cases other
  cases hsignature
  cases he
  rfl

/-- Each signature of a catalog claims the first operation that fits it, as if it were searched for
by itself: no signature gets in the way of another, so their order does not matter. A note is
taken of every further operation that fits, signature by signature. -/
theorem claims_eq_search (c : Catalog) (operations : List Operation) :
    (∀ name i, place? (c.claims operations).value name = some i ↔
      ∃ s ∈ c.signatures, s.name = name ∧ FirstFit operations s i) ∧
    (∀ s ∈ c.signatures, place? (c.claims operations).value s.name = none ↔
      ∀ op ∈ operations, s.fits op = false) ∧
    ((c.claims operations).value.map Claim.index).Nodup ∧
    (∀ d : Catalog, d.signatures.Perm c.signatures → ∀ name,
      place? (d.claims operations).value name = place? (c.claims operations).value name) ∧
    (c.claims operations).notes = c.signatures.flatMap fun s =>
      match operations.filter s.fits with
      | [] => []
      | kept :: further => further.map fun op => ⟨.debug, furtherFit s kept op⟩ := by
  refine ⟨fun name i => place?_claims_iff, ?_, claims_places_nodup c operations, ?_,
    claims_notes c operations⟩
  · intro s hs
    exact place?_claims_eq_none_iff hs
  · intro d hperm name
    refine Option.ext fun i => ?_
    simp only [place?_claims_iff, hperm.mem_iff]

def listingCatalog (front : Bool) : Catalog where
  signatures :=
    if front then [⟨"add", "POST", false, [], []⟩, ⟨"list", "GET", false, [], []⟩]
    else [⟨"list", "GET", false, [], []⟩, ⟨"add", "POST", false, [], []⟩]
  creation := "add"
  nodup := by cases front <;> decide
  creation_mem := by cases front <;> decide

def listings : List Operation :=
  [{ operationId := "callDelete", httpMethod := "DELETE", path := "/Api/Widget" },
    { operationId := "list", httpMethod := "GET", path := "/Api/Widget" },
    { operationId := "list", httpMethod := "GET", path := "/Api/Widget/All" }]

theorem claims_eq_search_listings :
    (listingCatalog true).signatures.Perm (listingCatalog false).signatures ∧
    place? ((listingCatalog true).claims listings).value "list" = some 1 ∧
    place? ((listingCatalog false).claims listings).value "list" = some 1 ∧
    place? ((listingCatalog false).claims listings).value "add" = none ∧
    ((listingCatalog false).claims listings).notes = [⟨.debug,
      "Operation 'list' also matches signature 'list'; keeping the first match 'list'"⟩] := by
  have hperm : (listingCatalog true).signatures.Perm (listingCatalog false).signatures :=
    List.Perm.swap _ _ []
  obtain ⟨hplace, hnone, -, hanyOrder, hnotes⟩ := claims_eq_search (listingCatalog false) listings
  have hfirst : FirstFit listings ⟨"list", "GET", false, [], []⟩ 1 :=
    firstFit_iff.2 (by decide +kernel)
  have hlist := (hplace "list" 1).2 ⟨_, List.mem_cons_self, rfl, hfirst⟩
  have hadd := (hnone ⟨"add", "POST", false, [], []⟩ (by decide)).2 (by decide +kernel)
  refine ⟨hperm, (hanyOrder _ hperm "list").trans hlist, hlist, hadd, hnotes.trans ?_⟩
  decide +kernel

end ApiPrep.Catalog
