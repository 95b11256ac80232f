import ApiPrep.Catalog.Read
import ApiPrep.Proofs.Promotion.Detect
import ApiPrep.Proofs.Record.Reading
import ApiPrep.Proofs.Text.Utf8
import ApiPrep.Proofs.Value.Spelled

namespace ApiPrep

open Naming Outcome Record

def Value.Named (raw : Value) : Prop :=
  ∃ fields name, raw.entries? = some fields ∧ fields.get? "name" = some name ∧ name.given = true

/-- A named mapping that is read as a signature. -/
structure Signature.Drafted (raw : Value) (s : Signature) : Prop where
  named : raw.Named
  read : Signature.form.read raw = .ok s

namespace Catalog

variable {rule : IdRule} {entries : Entries} {raw : Value} {raws : List Value} {s t : Signature}
  {signatures drafts : List Signature} {names : List Text} {name creation : Text}
  {c : Catalog} {f : Failure} {b : Breakdown}

/-! ### One signature -/

theorem signatureOfValue_nameless (h : ¬raw.Named) :
    signatureOfValue rule raw = refuseNameless raw := by
  rw [signatureOfValue]
  cases hraw : raw.entries? with
  | none => rfl
  | some fields =>
    refine if_neg fun hgiven => h ?_
    cases hname : fields.get? "name" with
    | none =>
      rw [hname] at hgiven
      cases hgiven
    | some name =>
      rw [hname] at hgiven
      exact ⟨fields, name, hraw, hname, hgiven⟩

theorem signatureOfValue_named (h : raw.Named) :
    signatureOfValue rule raw = match Signature.form.validate Signature.title raw with
      | .ok s => renamed rule s
      | .error report => Attempt.refused (.catalog (.invalid report)) := by
  obtain ⟨fields, name, hraw, hname, hgiven⟩ := h
  rw [signatureOfValue, hraw]
  refine if_pos ?_
  rw [hname]
  exact hgiven

theorem renamed_eq_ok_iff :
    (renamed rule s).run.value = .ok t ↔
      ∃ name, (rule s.name).run.value = .ok name ∧ { s with name := name } = t := by
  rw [renamed, Traced.value_run_bind, bind_eq_ok_iff]
  simp only [Traced.value_run_pure, Except.ok.injEq]

theorem renamed_eq_error_iff :
    (renamed rule s).run.value = .error f ↔ (rule s.name).run.value = .error f := by
  rw [renamed, Traced.value_run_bind]
  exact bind_eq_error_iff_left fun _ => ⟨_, rfl⟩

theorem value_refuseNameless (raw : Value) :
    (refuseNameless raw).run.value = match raw.obstacle? with
      | some b => .error (.broken b)
      | none => .error (.refused (.catalog (.nameless raw.shown))) := by
  rw [refuseNameless, Traced.value_run_bind, Attempt.value_spellable]
  cases raw.obstacle? <;> rfl

theorem signatureOfValue_eq_ok_iff :
    (signatureOfValue rule raw).run.value = .ok t ↔
      ∃ s name, Signature.Drafted raw s ∧ (rule s.name).run.value = .ok name ∧
        { s with name := name } = t := by
  by_cases hnamed : raw.Named
  · rw [signatureOfValue_named hnamed, Form.validate]
    cases hread : Signature.form.read raw with
    | ok s =>
      refine renamed_eq_ok_iff.trans ⟨?_, ?_⟩
      · rintro ⟨name, hname, ht⟩
        exact ⟨s, name, ⟨hnamed, hread⟩, hname, ht⟩
      · rintro ⟨s', name, hs, hname, ht⟩
        obtain rfl : s = s' := Checked.ok.inj (hread.symm.trans hs.read)
        exact ⟨name, hname, ht⟩
    | faulty issues =>
      refine iff_of_false nofun ?_
      rintro ⟨s, -, hs, -⟩
      cases hread.symm.trans hs.read
  · rw [signatureOfValue_nameless hnamed, value_refuseNameless]
    refine iff_of_false ?_ fun ⟨_, _, hs, _⟩ => hnamed hs.named
    cases raw.obstacle? <;> exact nofun

/-! ### All signatures -/

def withNames (drafts : List Signature) (names : List Text) : List Signature :=
  List.zipWith (fun s name => { s with name := name }) drafts names

theorem map_name_withNames (h : drafts.length = names.length) :
    (withNames drafts names).map Signature.name = names := by
  rw [withNames, List.map_zipWith]
  exact List.map_zip_eq_zipWith.symm.trans (List.map_snd_zip (Nat.le_of_eq h.symm))

theorem forall₂_signatureOfValue_iff :
    List.Forall₂ (fun raw t => (signatureOfValue rule raw).run.value = .ok t) raws signatures ↔
      ∃ drafts names, List.Forall₂ Signature.Drafted raws drafts ∧
        List.Forall₂ (fun s name => (rule s.name).run.value = .ok name) drafts names ∧
        withNames drafts names = signatures := by
  constructor
  · intro h
    induction h with
    | nil => exact ⟨[], [], .nil, .nil, rfl⟩
    | cons ht _ ih =>
      obtain ⟨s, name, hs, hname, rfl⟩ := signatureOfValue_eq_ok_iff.1 ht
      obtain ⟨drafts, names, hdrafts, hnames, rfl⟩ := ih
      exact ⟨s :: drafts, name :: names, .cons hs hdrafts, .cons hname hnames, rfl⟩
  · rintro ⟨drafts, names, hdrafts, hnames, rfl⟩
    induction hdrafts generalizing names with
    | nil =>
      cases hnames
      exact .nil
    | cons hs _ ih =>
      cases hnames with
      | cons hname hnames =>
        exact .cons (signatureOfValue_eq_ok_iff.2 ⟨_, _, hs, hname, rfl⟩) (ih _ hnames)

theorem make?_eq_ok_iff :
    make? signatures creation = .ok c ↔ c.signatures = signatures ∧ c.creation = creation := by
  rw [make?]
  constructor
  · intro h
    split at h
    · split at h
      · cases h
        exact ⟨rfl, rfl⟩
      · cases h
    · cases h
  · rintro ⟨rfl, rfl⟩
    rw [dif_pos c.nodup, dif_pos c.creation_mem]

theorem assemble_eq_ok_iff :
    assemble signatures creation = .ok c ↔ c.signatures = signatures ∧ c.creation = creation := by
  rw [← make?_eq_ok_iff, assemble, check]
  cases make? signatures creation with
  | ok c' => simp only [Checked.report, Except.ok.injEq]
  | error flaw => exact iff_of_false nofun nofun

/-! ### Documents -/

def givenSignatures (entries : Entries) : Option (List Value) :=
  (entries.get? "signatures").bind Value.items?

def givenCreation (entries : Entries) : Value :=
  (entries.get? "creation").getD (.text usualCreation)

theorem ofEntries_eq_refused (h : ∀ raws, givenSignatures entries = some raws → raws = []) :
    ofEntries rule entries = Attempt.refused (.catalog .noSignatures) := by
  rw [ofEntries]
  split
  · next first rest hraws => cases h _ hraws
  · rfl

/-- A document that makes a catalog: of drafts, of the names that a rule gives them, and of its
creation. -/
structure WellFormed (rule : IdRule) (entries : Entries) (drafts : List Signature)
    (names : List Text) (creation : Text) : Prop where
  drafted : ∃ raws, givenSignatures entries = some raws ∧ raws ≠ [] ∧
    List.Forall₂ Signature.Drafted raws drafts
  named : List.Forall₂ (fun s name => (rule s.name).run.value = .ok name) drafts names
  spelled : (givenCreation entries).obstacle? = none
  created : (rule (givenCreation entries).plain).run.value = .ok creation
  distinct : names.Nodup
  known : creation ∈ names

theorem value_ofEntries (hraws : givenSignatures entries = some raws) (hne : raws ≠ []) :
    (ofEntries rule entries).run.value = (do
      let signatures ← raws.mapM fun raw => (signatureOfValue rule raw).run.value
      let text ← (Attempt.spelled (givenCreation entries)).run.value
      let creation ← (rule text).run.value
      match assemble signatures creation with
      | .ok c => .ok c
      | .error report => .error (.refused (.catalog (.invalid report)))) := by
  rw [givenSignatures] at hraws
  cases raws with
  | nil => exact absurd rfl hne
  | cons first rest =>
    rw [ofEntries, hraws]
    simp only [Traced.value_run_bind, Traced.value_run_mapM]
    refine bind_congr fun signatures => bind_congr fun text => bind_congr fun creation => ?_
    cases assemble signatures creation <;> rfl

theorem ofEntries_eq_ok_iff_forall₂ (hraws : givenSignatures entries = some raws)
    (hne : raws ≠ []) :
    (ofEntries rule entries).run.value = .ok c ↔
      List.Forall₂ (fun raw t => (signatureOfValue rule raw).run.value = .ok t) raws
        c.signatures ∧ (givenCreation entries).obstacle? = none ∧
        (rule (givenCreation entries).plain).run.value = .ok c.creation := by
  simp only [value_ofEntries hraws hne, bind_eq_ok_iff, mapM_eq_ok_iff, Attempt.spelled_eq_ok_iff]
  constructor
  · rintro ⟨signatures, hsignatures, _, ⟨hspelled, rfl⟩, creation, hcreation, h⟩
    split at h
    · next c' hc =>
      obtain rfl : c' = c := Except.ok.inj h
      obtain ⟨rfl, rfl⟩ := assemble_eq_ok_iff.1 hc
      exact ⟨hsignatures, hspelled, hcreation⟩
    · cases h
  · rintro ⟨hsignatures, hspelled, hcreation⟩
    refine ⟨_, hsignatures, _, ⟨hspelled, rfl⟩, _, hcreation, ?_⟩
    rw [assemble_eq_ok_iff.2 ⟨rfl, rfl⟩]

theorem ofEntries_eq_ok_iff :
    (ofEntries rule entries).run.value = .ok c ↔
      ∃ drafts names, WellFormed rule entries drafts names c.creation ∧
        withNames drafts names = c.signatures := by
  by_cases hraws : ∀ raws, givenSignatures entries = some raws → raws = []
  · rw [ofEntries_eq_refused hraws]
    refine iff_of_false nofun ?_
    rintro ⟨drafts, names, hw, -⟩
    obtain ⟨raws, hgiven, hne, -⟩ := hw.drafted
    exact hne (hraws raws hgiven)
  · push Not at hraws
    obtain ⟨raws, hgiven, hne⟩ := hraws
    rw [ofEntries_eq_ok_iff_forall₂ hgiven hne, forall₂_signatureOfValue_iff]
    constructor
    · rintro ⟨⟨drafts, names, hdrafts, hnames, hall⟩, hspelled, hcreated⟩
      have hmap : c.signatures.map Signature.name = names :=
        hall ▸ map_name_withNames hnames.length_eq
      exact ⟨drafts, names,
        { drafted := ⟨raws, hgiven, hne, hdrafts⟩
          named := hnames
          spelled := hspelled
          created := hcreated
          distinct := hmap ▸ c.nodup
          known := hmap ▸ c.creation_mem }, hall⟩
    · rintro ⟨drafts, names, hw, hall⟩
      obtain ⟨raws', hgiven', -, hdrafts⟩ := hw.drafted
      obtain rfl : raws = raws' := Option.some.inj (hgiven.symm.trans hgiven')
      exact ⟨⟨drafts, names, hdrafts, hw.named, hall⟩, hw.spelled, hw.created⟩

theorem WellFormed.make (h : WellFormed rule entries drafts names creation) :
    ∃ c : Catalog, c.signatures = withNames drafts names ∧ c.creation = creation := by
  have hmap : (withNames drafts names).map Signature.name = names :=
    map_name_withNames h.named.length_eq
  exact ⟨⟨withNames drafts names, creation, hmap.symm ▸ h.distinct, hmap.symm ▸ h.known⟩, rfl, rfl⟩

/-- A document is read as a catalog iff it is well formed. The catalog has the drafts of the
document, in their order and with their names put through the rule, and its creation is one of
them: wherever all signatures are claimed, so is the creation. -/
theorem ofEntries_reads_wellFormed (rule : IdRule) (entries : Entries) :
    ((∃ c, (ofEntries rule entries).run.value = .ok c) ↔
      ∃ drafts names creation, WellFormed rule entries drafts names creation) ∧
    ∀ c, (ofEntries rule entries).run.value = .ok c →
      (∃ drafts names, WellFormed rule entries drafts names c.creation ∧
        c.signatures = withNames drafts names) ∧
      c.get? c.creation = some c.creationSignature ∧
      ∀ operations, Promotion.unclaimed c (c.claims operations).value = [] →
        ∃ op ∈ operations, Promotion.creationOf? c operations (c.claims operations).value =
          some op := by
  refine ⟨⟨?_, ?_⟩, fun c hc => ⟨?_, c.get?_creation, fun operations hall => ?_⟩⟩
  · rintro ⟨c, hc⟩
    obtain ⟨drafts, names, hw, -⟩ := ofEntries_eq_ok_iff.1 hc
    exact ⟨drafts, names, c.creation, hw⟩
  · rintro ⟨drafts, names, creation, hw⟩
    obtain ⟨c, hall, rfl⟩ := hw.make
    exact ⟨c, ofEntries_eq_ok_iff.2 ⟨drafts, names, hw, hall.symm⟩⟩
  · obtain ⟨drafts, names, hw, hall⟩ := ofEntries_eq_ok_iff.1 hc
    exact ⟨drafts, names, hw, hall.symm⟩
  · have hcovered : c.Covered operations := Promotion.unclaimed_eq_nil_iff.1 hall
    rw [Promotion.creationOf?_of_covered hcovered]
    obtain ⟨op, hop⟩ := Option.isSome_iff_exists.1
      (List.find?_isSome.2 (hcovered _ c.creationSignature_mem))
    exact ⟨op, List.mem_of_find?_eq_some hop, hop⟩

end Catalog

end ApiPrep
