import ApiPrep.Proofs.Catalog.Reading
import ApiPrep.Proofs.Naming.Identifier

namespace ApiPrep

open Naming Outcome Record

/-! ### Names of drafts -/

theorem Form.readText_given {v : Value} {name : Text} (hv : v.given = true)
    (h : Form.readText v = .ok name) : name ≠ "" := by
  match v, h with
  | .text s, h =>
    obtain rfl : s = name := Checked.ok.inj h
    exact of_decide_eq_true hv
  | .scalar (.bytes content), h =>
    rw [Form.readText] at h
    cases hdecode : Text.Utf8.decode content with
    | error fault =>
      rw [hdecode] at h
      cases h
    | ok chars =>
      rw [hdecode] at h
      obtain rfl : Text.ofList (chars.map .char) = name := Checked.ok.inj h
      intro hempty
      -- Only no bytes at all stand for the empty text.
      have hcontent : content = [] := by
        rw [← Text.Utf8.decode_eq_ok_iff.1 hdecode,
          List.map_eq_nil_iff.1 (Text.toList_eq_nil_iff.2 hempty)]
        rfl
      rw [hcontent] at hv
      cases hv

theorem Signature.name_of_read {raw : Value} {s : Signature}
    (h : Signature.form.read raw = .ok s) : ∃ fields, raw.entries? = some fields ∧
      Signature.nameMember.read fields = .ok s.name := by
  obtain ⟨fields, hraw, hread⟩ := Form.record_read_iff.1 h
  -- One field after the other, from the last to the second.
  iterate 4
    rw [Checked.ap_eq_ok_iff] at hread
    obtain ⟨_, _, hread, -, rfl⟩ := hread
  obtain ⟨name, hname, rfl⟩ := Checked.fmap_eq_ok_iff.1 hread
  exact ⟨fields, hraw, hname⟩

theorem Signature.Drafted.name_ne_empty {raw : Value} {s : Signature} (h : Drafted raw s) :
    s.name ≠ "" := by
  obtain ⟨fields, v, hraw, hv, hgiven⟩ := h.named
  obtain ⟨fields', hraw', hname⟩ := name_of_read h.read
  obtain rfl : fields = fields' := Option.some.inj (hraw.symm.trans hraw')
  rw [Member.read_wire (m := nameMember) hv, Checked.within_eq_ok_iff] at hname
  exact Form.readText_given hgiven hname

namespace Catalog

variable {entries : Entries} {raw : Value} {raws : List Value} {f : Failure} {b : Breakdown}

theorem exists_usual_of_drafted {s : Signature} (h : Signature.Drafted raw s) :
    ∃ t, (signatureOfValue .usual raw).run.value = .ok t := by
  cases hname : (IdRule.usual s.name).run.value with
  | ok name => exact ⟨_, signatureOfValue_eq_ok_iff.2 ⟨s, name, h, hname, rfl⟩⟩
  | error f => exact absurd (IdRule.usual_eq_error_iff.1 hname).1 h.name_ne_empty

theorem signatureOfValue_usual_ok_iff :
    (∃ t, (signatureOfValue .usual raw).run.value = .ok t) ↔ ∃ s, Signature.Drafted raw s := by
  constructor
  · rintro ⟨t, ht⟩
    obtain ⟨s, name, hs, -, -⟩ := signatureOfValue_eq_ok_iff.1 ht
    exact ⟨s, hs⟩
  · rintro ⟨s, hs⟩
    exact exists_usual_of_drafted hs

theorem signatureOfValue_usual_error
    (h : (signatureOfValue .usual raw).run.value = .error f) :
    (∃ c, f = .refused (.catalog c)) ∨
      ∃ b, f = .broken b ∧ ¬raw.Named ∧ raw.obstacle? = some b := by
  by_cases hnamed : raw.Named
  · left
    rw [signatureOfValue_named hnamed, Form.validate] at h
    cases hread : Signature.form.read raw with
    | ok s =>
      rw [hread] at h
      have hname := (IdRule.usual_eq_error_iff.1 (renamed_eq_error_iff.1 h)).1
      exact absurd hname (Signature.Drafted.name_ne_empty ⟨hnamed, hread⟩)
    | faulty issues =>
      rw [hread] at h
      exact ⟨_, (Except.error.inj h).symm⟩
  · rw [signatureOfValue_nameless hnamed, value_refuseNameless] at h
    cases hraw : raw.obstacle? with
    | none =>
      rw [hraw] at h
      exact .inl ⟨_, (Except.error.inj h).symm⟩
    | some b =>
      rw [hraw] at h
      exact .inr ⟨b, (Except.error.inj h).symm, hnamed, rfl⟩

theorem signatureOfValue_breaks_iff {rule : IdRule} (hnamed : ¬raw.Named) :
    (signatureOfValue rule raw).run.value = .error (.broken b) ↔ raw.obstacle? = some b := by
  rw [signatureOfValue_nameless hnamed, value_refuseNameless]
  cases raw.obstacle? with
  | none => exact iff_of_false nofun nofun
  | some b' => simp only [Except.error.injEq, Failure.broken.injEq, Option.some.injEq]

/-! ### Documents -/

/-- What breaks the reading of a catalog down. -/
inductive Stumble (entries : Entries) : Breakdown → Prop
  /-- The first signature that is no draft has no name either, and cannot be shown. -/
  | nameless (before : List Value) (raw : Value) (after : List Value) (b : Breakdown)
      (given : givenSignatures entries = some (before ++ raw :: after))
      (drafts : ∀ earlier ∈ before, ∃ s, Signature.Drafted earlier s)
      (nameless : ¬raw.Named) (stuck : raw.obstacle? = some b) : Stumble entries b
  /-- All signatures are drafts, but the creation cannot be spelled out. -/
  | creation (raws : List Value) (b : Breakdown)
      (given : givenSignatures entries = some raws) (nonempty : raws ≠ [])
      (drafts : ∀ raw ∈ raws, ∃ s, Signature.Drafted raw s)
      (stuck : (givenCreation entries).obstacle? = some b) : Stumble entries b
  /-- All signatures are drafts, but the creation is the empty text. -/
  | emptyCreation (raws : List Value)
      (given : givenSignatures entries = some raws) (nonempty : raws ≠ [])
      (drafts : ∀ raw ∈ raws, ∃ s, Signature.Drafted raw s)
      (empty : givenCreation entries = .text "") : Stumble entries .emptyOperationId

theorem mapM_signatureOfValue_usual_iff :
    (∃ signatures, (raws.mapM fun raw => (signatureOfValue .usual raw).run.value) =
      .ok signatures) ↔ ∀ raw ∈ raws, ∃ s, Signature.Drafted raw s := by
  simp only [exists_mapM_ok_iff, signatureOfValue_usual_ok_iff]

theorem Stumble.breaks (h : Stumble entries b) :
    (ofEntries .usual entries).run.value = .error (.broken b) := by
  cases h with
  | nameless before raw after b given drafts nameless stuck =>
    have nonempty : before ++ raw :: after ≠ [] :=
      List.append_ne_nil_of_right_ne_nil before (List.cons_ne_nil raw after)
    rw [value_ofEntries given nonempty, bind_eq_error_iff]
    refine .inl (mapM_eq_error_iff.2 ⟨before, raw, after, rfl, fun earlier hearlier => ?_, ?_⟩)
    · exact signatureOfValue_usual_ok_iff.2 (drafts earlier hearlier)
    · exact (signatureOfValue_breaks_iff nameless).2 stuck
  | creation raws b given nonempty drafts stuck =>
    obtain ⟨signatures, hsignatures⟩ := mapM_signatureOfValue_usual_iff.2 drafts
    rw [value_ofEntries given nonempty, hsignatures, ok_bind, Attempt.value_spelled, stuck]
    rfl
  | emptyCreation raws given nonempty drafts empty =>
    obtain ⟨signatures, hsignatures⟩ := mapM_signatureOfValue_usual_iff.2 drafts
    rw [value_ofEntries given nonempty, hsignatures, ok_bind, empty]
    rfl

theorem ofEntries_usual_error (h : (ofEntries .usual entries).run.value = .error f) :
    (∃ c, f = .refused (.catalog c)) ∨ ∃ b, f = .broken b ∧ Stumble entries b := by
  by_cases hraws : ∀ raws, givenSignatures entries = some raws → raws = []
  · rw [ofEntries_eq_refused hraws] at h
    exact .inl ⟨_, (Except.error.inj h).symm⟩
  push Not at hraws
  obtain ⟨raws, given, nonempty⟩ := hraws
  rw [value_ofEntries given nonempty, bind_eq_error_iff] at h
  rcases h with h | ⟨signatures, hsignatures, h⟩
  · obtain ⟨before, raw, after, rfl, hbefore, hraw⟩ := mapM_eq_error_iff.1 h
    refine (signatureOfValue_usual_error hraw).imp_right ?_
    rintro ⟨b, rfl, hnamed, hb⟩
    refine ⟨b, rfl, .nameless before raw after b given (fun earlier hearlier => ?_) hnamed hb⟩
    exact signatureOfValue_usual_ok_iff.1 (hbefore earlier hearlier)
  have drafts : ∀ raw ∈ raws, ∃ s, Signature.Drafted raw s :=
    mapM_signatureOfValue_usual_iff.1 ⟨signatures, hsignatures⟩
  rw [Attempt.value_spelled] at h
  cases hspelled : (givenCreation entries).obstacle? with
  | some b =>
    rw [hspelled] at h
    exact .inr ⟨b, (Except.error.inj h).symm, .creation raws b given nonempty drafts hspelled⟩
  | none =>
    rw [hspelled] at h
    simp only [ok_bind, bind_eq_error_iff] at h
    rcases h with h | ⟨creation, -, h⟩
    · obtain ⟨hempty, rfl⟩ := IdRule.usual_eq_error_iff.1 h
      exact .inr ⟨_, rfl, .emptyCreation raws given nonempty drafts
        (Value.plain_eq_empty_iff.1 hempty)⟩
    · split at h
      · cases h
      · exact .inl ⟨_, (Except.error.inj h).symm⟩

/-- A catalog document that is not read is reported as a bad catalog, but for the ones that its
reading stumbles on: these break the run down. -/
theorem ofEntries_usual_breaks_iff (entries : Entries) :
    (∀ f, (ofEntries .usual entries).run.value = .error f →
      (∃ c, f = .refused (.catalog c)) ∨ ∃ b, f = .broken b) ∧
    ∀ b, (ofEntries .usual entries).run.value = .error (.broken b) ↔ Stumble entries b := by
  constructor
  · intro f h
    refine (ofEntries_usual_error h).imp_right ?_
    rintro ⟨b, hb, -⟩
    exact ⟨b, hb⟩
  · intro b
    refine ⟨fun h => ?_, Stumble.breaks⟩
    rcases ofEntries_usual_error h with ⟨c, hc⟩ | ⟨b', hb, hstumble⟩
    · cases hc
    · exact Failure.broken.inj hb ▸ hstumble

def uncreated : Entries :=
  [(.text "signatures",
      .list [.map [(.text "name", .text "Add"), (.text "httpMethod", .text "GET")]]),
    (.text "creation", .text "")]

/-- An empty creation is no reported fault. -/
theorem ofEntries_stumbles_on_empty_creation :
    ∃ f, (ofEntries .usual uncreated).run.value = .error f ∧ ∀ c, f ≠ .refused (.catalog c) :=
  ⟨.broken .emptyOperationId, by decide +kernel, nofun⟩

end Catalog

end ApiPrep
