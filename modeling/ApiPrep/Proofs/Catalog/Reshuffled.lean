import ApiPrep.Proofs.Catalog.Reading
import ApiPrep.Proofs.Parameter.Multiset
import Mathlib.Data.List.Pairwise

namespace ApiPrep

namespace Parameter

/-- Lists that come from each other by putting parameters in another order, and by putting in and
taking out parameters without a base name. -/
inductive Reshuffled : List Parameter → List Parameter → Prop
  | perm {ps qs : List Parameter} (h : ps.Perm qs) : Reshuffled ps qs
  | insert (before after : List Parameter) {p : Parameter} (hp : p.baseName = none) :
      Reshuffled (before ++ after) (before ++ p :: after)
  | delete (before after : List Parameter) {p : Parameter} (hp : p.baseName = none) :
      Reshuffled (before ++ p :: after) (before ++ after)
  | trans {ps qs rs : List Parameter} (h : Reshuffled ps qs) (h' : Reshuffled qs rs) :
      Reshuffled ps rs

theorem shapes_insert (before after : List Parameter) {p : Parameter} (hp : p.baseName = none) :
    shapes ((before ++ p :: after).map some) = shapes ((before ++ after).map some) := by
  have hunnamed : named (some p) = false := by rw [named, Option.bind_some, hp, Option.isSome_none]
  rw [List.map_append, List.map_append, List.map_cons, shapes_append, shapes_append,
    shapes_cons_of_not_named hunnamed]

theorem Reshuffled.shapes_perm {ps qs : List Parameter} (h : Reshuffled ps qs) :
    (shapes (ps.map some)).Perm (shapes (qs.map some)) := by
  induction h with
  | perm h => exact Parameter.shapes_perm (h.map some)
  | insert before after hp => exact .of_eq (shapes_insert before after hp).symm
  | delete before after hp => exact .of_eq (shapes_insert before after hp)
  | trans _ _ ih ih' => exact ih.trans ih'

theorem eq_of_names_nodup {ps : List Parameter} (h : (ps.filterMap baseName).Nodup)
    {p q : Parameter} (hp : p ∈ ps) (hq : q ∈ ps) {name : Text} (hpn : p.baseName = some name)
    (hqn : q.baseName = some name) : p = q := by
  have hapart := List.pairwise_filterMap.1 h
  have hsymm : Std.Symm fun p q : Parameter =>
      ∀ a, p.baseName = some a → ∀ b, q.baseName = some b → a ≠ b :=
    ⟨fun _ _ hpq b hb a ha => (hpq a ha b hb).symm⟩
  by_contra hne
  exact hapart.forall hp hq hne name hpn name hqn rfl

theorem tiesAgree_of_names_nodup {ps : List Parameter} (h : (ps.filterMap baseName).Nodup) :
    TiesAgree (ps.map some) := by
  intro p q hp hq hpn hqn hkey
  have hmem {p : Parameter} : some p ∈ ps.map some ↔ p ∈ ps :=
    List.mem_map_of_injective fun _ _ => Option.some.inj
  obtain ⟨name, hname⟩ := Option.isSome_iff_exists.1 hpn
  have hbase := baseName_eq_of_sortKey hpn hqn hkey
  obtain rfl := eq_of_names_nodup h (hmem.1 hp) (hmem.1 hq) hname (hbase.symm.trans hname)
  exact agrees_iff_shape.2 rfl

end Parameter

structure Operation.Reshuffled (op op' : Operation) : Prop where
  path : Parameter.Reshuffled op.pathParams op'.pathParams
  query : Parameter.Reshuffled op.queryParams op'.queryParams
  others : op' = { op with pathParams := op'.pathParams, queryParams := op'.queryParams }

structure Signature.NamesApart (s : Signature) : Prop where
  path : (s.pathParams.filterMap Parameter.baseName).Nodup
  query : (s.queryParams.filterMap Parameter.baseName).Nodup

/-- An operation fits a signature with its names apart iff it says the same of itself and of every
named parameter, each as often. -/
theorem Signature.NamesApart.fits_iff {s : Signature} (hs : s.NamesApart) (op : Operation) :
    s.fits op = true ↔
      (s.name = op.operationId ∧ s.httpMethod = op.httpMethod ∧ s.hasBody = op.hasBody) ∧
      (Parameter.shapes (s.queryParams.map some)).Perm
        (Parameter.shapes (op.queryParams.map some)) ∧
      (Parameter.shapes (s.pathParams.map some)).Perm
        (Parameter.shapes (op.pathParams.map some)) := by
  -- the names of the signature are enough: a list with ties of its own is never the same set
  have hquery := Parameter.tiesAgree_of_names_nodup hs.query
  have hpath := Parameter.tiesAgree_of_names_nodup hs.path
  simp only [Signature.fits, Bool.and_eq_true, beq_iff_eq, hquery.sameSet_iff, hpath.sameSet_iff,
    and_assoc]

theorem Signature.NamesApart.fits_reshuffled {s : Signature} (hs : s.NamesApart)
    {op op' : Operation} (h : op.Reshuffled op') : s.fits op' = s.fits op := by
  have hquery := h.query.shapes_perm
  have hpath := h.path.shapes_perm
  have hid : op'.operationId = op.operationId := by rw [h.others]
  have hmethod : op'.httpMethod = op.httpMethod := by rw [h.others]
  have hbody : op'.hasBody = op.hasBody := by rw [h.others]; rfl
  rw [Bool.eq_iff_iff, hs.fits_iff, hs.fits_iff, hid, hmethod, hbody]
  refine and_congr_right fun _ => and_congr ?_ ?_
  · exact ⟨fun hp => hp.trans hquery.symm, fun hp => hp.trans hquery⟩
  · exact ⟨fun hp => hp.trans hpath.symm, fun hp => hp.trans hpath⟩

namespace Catalog

open Naming Outcome

theorem findIdx?_fits_congr {s : Signature} {operations operations' : List Operation}
    (h : List.Forall₂ (fun op op' => s.fits op' = s.fits op) operations operations') :
    operations'.findIdx? s.fits = operations.findIdx? s.fits := by
  induction h with
  | nil => rfl
  | cons hop _ ih => rw [List.findIdx?_cons, List.findIdx?_cons, hop, ih]

theorem claims_value_congr {c : Catalog} {operations operations' : List Operation}
    (h : ∀ s ∈ c.signatures,
      List.Forall₂ (fun op op' => s.fits op' = s.fits op) operations operations') :
    (c.claims operations').value = (c.claims operations).value := by
  rw [claims_value, claims_value]
  refine List.filterMap_congr fun s hs => ?_
  rw [firstFit?, firstFit?, findIdx?_fits_congr (h s hs)]

theorem conventional_namesApart : ∀ s ∈ conventional, s.NamesApart := by
  have hnames : ∀ s ∈ conventional, (s.pathParams.filterMap Parameter.baseName).Nodup ∧
      (s.queryParams.filterMap Parameter.baseName).Nodup := by decide
  intro s hs
  exact ⟨(hnames s hs).1, (hnames s hs).2⟩

theorem namesApart_renamed {rule : IdRule} {s t : Signature} (hs : s.NamesApart)
    (h : (renamed rule s).run.value = .ok t) : t.NamesApart := by
  obtain ⟨name, -, rfl⟩ := renamed_eq_ok_iff.1 h
  exact ⟨hs.path, hs.query⟩

theorem standard_namesApart {rule : IdRule} {c : Catalog}
    (h : (standard rule).run.value = .ok c) : ∀ s ∈ c.signatures, s.NamesApart := by
  rw [standard, Traced.value_run_bind, bind_eq_ok_iff] at h
  obtain ⟨signatures, hsignatures, h⟩ := h
  rw [Traced.value_run_bind, bind_eq_ok_iff] at h
  obtain ⟨creation, -, h⟩ := h
  rw [Traced.value_run_mapM, mapM_eq_ok_iff] at hsignatures
  have hc : assemble signatures creation = .ok c := by
    cases hassemble : assemble signatures creation with
    | ok c' =>
      rw [hassemble] at h
      rw [Except.ok.inj h]
    | error report => rw [hassemble] at h; cases h
  rw [(assemble_eq_ok_iff.1 hc).1]
  have hpairs := (List.forall₂_and_left _ _).2 ⟨conventional_namesApart, hsignatures⟩
  have hapart := hpairs.imp fun s t hst =>
    (⟨namesApart_renamed hst.1 hst.2, trivial⟩ : t.NamesApart ∧ True)
  exact ((List.forall₂_and_left _ _).1 hapart.flip).1

/-- An operation fits a signature with its names apart in whatever order it has its parameters, and
whatever it has besides without a name; names that it repeats change nothing. Catalogs of such
signatures, like the standard one, claim the same places after each reshuffling. -/
theorem reshuffling_irrelevant :
    (∀ (s : Signature) (op op' : Operation), s.NamesApart → op.Reshuffled op' →
      s.fits op' = s.fits op) ∧
    (∀ (c : Catalog) (operations operations' : List Operation),
      (∀ s ∈ c.signatures, s.NamesApart) →
      List.Forall₂ Operation.Reshuffled operations operations' →
      (c.claims operations').value = (c.claims operations).value) ∧
    ∀ (rule : IdRule) (c : Catalog), (standard rule).run.value = .ok c →
      ∀ s ∈ c.signatures, s.NamesApart := by
  refine ⟨?_, ?_, ?_⟩
  · intro s op op' hs h
    exact hs.fits_reshuffled h
  · intro c operations operations' hc h
    refine claims_value_congr fun s hs => ?_
    exact h.imp fun _ _ hop => (hc s hs).fits_reshuffled hop
  · intro rule c hc
    exact standard_namesApart hc

def rawStandard : Catalog where
  signatures := conventional
  creation := usualCreation
  nodup := by decide
  creation_mem := by decide

def historySignature : Signature where
  name := "History"
  httpMethod := "GET"
  pathParams := [requiredId]
  queryParams := historyQuery

def history : Operation where
  operationId := "History"
  httpMethod := "GET"
  path := "/Api/Widget/{id}/History"
  pathParams := [requiredId]
  queryParams := historyQuery

def historyReversed : Operation :=
  { history with pathParams := [{ paramName := some "trace" }, requiredId],
                 queryParams := historyQuery.reverse }

theorem reshuffling_irrelevant_history :
    (standard (.ofFunction id)).run.value = .ok rawStandard ∧
    history.Reshuffled historyReversed ∧ historySignature.fits historyReversed = true ∧
    (rawStandard.claims [historyReversed]).value = (rawStandard.claims [history]).value := by
  obtain ⟨hfits, hclaims, hstandard⟩ := reshuffling_irrelevant
  have hread : (standard (.ofFunction id)).run.value = .ok rawStandard := by decide +kernel
  have hapart := hstandard _ _ hread
  have hshuffled : history.Reshuffled historyReversed :=
    ⟨.insert [] [requiredId] rfl, .perm (List.reverse_perm historyQuery).symm, rfl⟩
  have hs : historySignature.NamesApart := hapart historySignature (by decide)
  have hfit : historySignature.fits history = true :=
    (hs.fits_iff history).2 ⟨⟨rfl, rfl, rfl⟩, .refl _, .refl _⟩
  exact ⟨hread, hshuffled, (hfits _ _ _ hs hshuffled).trans hfit,
    hclaims rawStandard [history] [historyReversed] hapart (.cons hshuffled .nil)⟩

end Catalog

end ApiPrep
