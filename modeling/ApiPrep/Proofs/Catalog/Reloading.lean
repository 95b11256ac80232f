import ApiPrep.Proofs.Catalog.Stumbling
import ApiPrep.Proofs.Document.Lossless
import ApiPrep.Proofs.Naming.NormalForms
import ApiPrep.Proofs.Output.Document

namespace ApiPrep

open Naming Record

variable {rule : IdRule} {entries : Entries} {c : Catalog} {s t : Signature}

/-! ### What is written of signatures -/

namespace Signature

theorem form_fitting : form.Fitting 3 := by
  apply Form.record_fitting slots (by decide) (fun _ _ => rfl)
  have hparams : (Form.tuple Parameter.form).Fitting 2 :=
    Form.sequence_fitting _ Parameter.form_fitting
  exact ⟨Form.text_fitting, Form.text_fitting, Form.flag_fitting, hparams, hparams⟩

theorem drafted_write_iff : Drafted (form.write .wire s) t ↔ s.name ≠ "" ∧ t = s := by
  constructor
  · intro h
    obtain rfl : s = t := Checked.ok.inj ((form_lossless .wire s).symm.trans h.read)
    exact ⟨h.name_ne_empty, rfl⟩
  · rintro ⟨hname, rfl⟩
    exact ⟨⟨_, .text t.name, rfl, rfl, decide_eq_true hname⟩, form_lossless .wire t⟩

end Signature

namespace Catalog

def saved (c : Catalog) : Entries :=
  [signaturesMember.write .wire c.signatures, creationMember.write .wire c.creation]

theorem form_fitting : form.Fitting 5 := by
  apply Form.record_fitting slots (by decide) (fun _ _ => rfl)
  exact ⟨Form.sequence_fitting _ Signature.form_fitting, Form.text_fitting⟩

def Keeps (rule : IdRule) (s : Signature) : Prop :=
  s.name ≠ "" ∧ (rule s.name).run.value = .ok s.name

theorem signatureOfValue_write_iff :
    (signatureOfValue rule (Signature.form.write .wire s)).run.value = .ok s ↔ Keeps rule s := by
  rw [signatureOfValue_eq_ok_iff]
  constructor
  · rintro ⟨t, name, ht, hname, hs⟩
    obtain ⟨hne, rfl⟩ := Signature.drafted_write_iff.1 ht
    obtain rfl : name = t.name := congrArg Signature.name hs
    exact ⟨hne, hname⟩
  · rintro ⟨hne, hname⟩
    exact ⟨s, s.name, Signature.drafted_write_iff.2 ⟨hne, rfl⟩, hname, rfl⟩

theorem signatures_ne_nil (c : Catalog) : c.signatures ≠ [] := by
  intro hnil
  have hcreation := c.creation_mem
  rw [hnil] at hcreation
  cases hcreation

theorem ofEntries_saved_iff :
    (ofEntries rule c.saved).run.value = .ok c ↔ ∀ s ∈ c.signatures, Keeps rule s := by
  have hgiven : givenSignatures c.saved =
      some (c.signatures.map (Signature.form.write .wire)) := rfl
  have hcreation : givenCreation c.saved = .text c.creation := rfl
  have hne : c.signatures.map (Signature.form.write .wire) ≠ [] :=
    mt List.map_eq_nil_iff.1 c.signatures_ne_nil
  rw [ofEntries_eq_ok_iff_forall₂ hgiven hne, hcreation, List.forall₂_map_left_iff,
    List.forall₂_same]
  simp only [signatureOfValue_write_iff]
  constructor
  · rintro ⟨hall, -, -⟩
    exact hall
  · intro hall
    obtain ⟨s, hs, hname⟩ := List.mem_map.1 c.creation_mem
    exact ⟨hall, rfl, hname ▸ (hall s hs).2⟩

/-! ### Names that stay -/

theorem exists_operationId_of_mem (h : (ofEntries .usual entries).run.value = .ok c)
    (hs : s ∈ c.signatures) : ∃ id, s.name = Text.ofList (operationId id).1 := by
  obtain ⟨drafts, names, hw, hall⟩ := ofEntries_eq_ok_iff.1 h
  obtain ⟨hlength, hnamed⟩ := List.forall₂_iff_zip.1 hw.named
  have hname : s.name ∈ (drafts.zip names).map Prod.snd := by
    rw [List.map_snd_zip hlength.ge, ← map_name_withNames hlength, hall]
    exact List.mem_map_of_mem hs
  obtain ⟨⟨draft, name⟩, hpair, hsame⟩ := List.mem_map.1 hname
  have hrule := hnamed hpair
  rcases Decidable.eq_or_ne draft.name "" with hempty | hne
  · rw [IdRule.usual_eq_error_iff.2 ⟨hempty, rfl⟩] at hrule
    cases hrule
  · rw [IdRule.usual_eq_ok hne] at hrule
    exact ⟨draft.name.toList, hsame.symm.trans (Except.ok.inj hrule).symm⟩

theorem keeps_usual_iff (h : (ofEntries .usual entries).run.value = .ok c)
    (hs : s ∈ c.signatures) : Keeps .usual s ↔ s.name ≠ "" ∧
      (∀ x ∈ s.name.toList, x.toNat < 128) ∧ isReserved s.name.toList = false := by
  obtain ⟨id, hid⟩ := exists_operationId_of_mem h hs
  refine and_congr_right fun hne => ?_
  have hname : s.name.toList = (operationId id).1 := by rw [hid, Text.toList_ofList]
  have hletters : (operationId id).1 ≠ [] := by
    rw [← hname]
    exact mt Text.toList_eq_nil_iff.1 hne
  rw [IdRule.usual_eq_ok hne, Except.ok.injEq, ← Text.toList_inj, Text.toList_ofList, hname]
  exact operationId_again_iff hletters

/-- A catalog that has been read is written as a document from which JSON reads its entries back.
They make the same catalog again iff each of its names stays as it is: it is not empty, consists of
ASCII and is not reserved. -/
theorem ofEntries_saved_usual_iff (h : (ofEntries .usual entries).run.value = .ok c) :
    form.write .wire c = .map c.saved ∧
    (∀ hint, hint ≠ .yaml → readContent hint (Json.write (.map c.saved) ++ "\n") = .ok c.saved) ∧
    ((ofEntries .usual c.saved).run.value = .ok c ↔ ∀ s ∈ c.signatures, s.name ≠ "" ∧
      (∀ x ∈ s.name.toList, x.toNat < 128) ∧ isReserved s.name.toList = false) := by
  have hfits : Json.Fits Json.mostOpen (.map c.saved) := (form_fitting.mono (by decide)) .wire c
  refine ⟨rfl, fun hint hhint => readContent_write hfits hhint, ?_⟩
  rw [ofEntries_saved_iff]
  exact forall₂_congr fun s hs => keeps_usual_iff h hs

def shelving : Entries :=
  [(.text "signatures", .list
      [.map [(.text "name", .text "Delete"), (.text "http_method", .text "DELETE"),
        (.text "path_params", .list [.map [(.text "dataType", .text "number")]])],
      .map [(.text "name", .text "add shelf"), (.text "httpMethod", .text "PUT"),
        (.text "hasBody", .text "yes")]]),
    (.text "creation", .text "add_shelf")]

def shelvingCatalog : Catalog where
  signatures := [⟨"callDelete", "DELETE", false, [{ dataType := some "number" }], []⟩,
    ⟨"addShelf", "PUT", true, [], []⟩]
  creation := "addShelf"
  nodup := by decide
  creation_mem := by decide

theorem ofEntries_saved_shelving :
    (ofEntries .usual shelving).run.value = .ok shelvingCatalog ∧
      (ofEntries .usual shelvingCatalog.saved).run.value = .ok shelvingCatalog := by
  have h : (ofEntries .usual shelving).run.value = .ok shelvingCatalog := by decide +kernel
  refine ⟨h, (ofEntries_saved_usual_iff h).2.2.2 ?_⟩
  have hnames : shelvingCatalog.signatures.all (fun s => s.name ≠ "" &&
      s.name.toList.all (fun x => x.toNat < 128) && !isReserved s.name.toList) = true := by
    decide +kernel
  intro s hs
  have hname := List.all_eq_true.1 hnames s hs
  simp only [Bool.and_eq_true, decide_eq_true_eq, List.all_eq_true, Bool.not_eq_true'] at hname
  exact ⟨hname.1.1, hname.1.2, hname.2⟩

-- A sign for kelvin makes a word reserved, stays in its name, and is dropped from this.
example : (operationId "Brea\u212a".runes).1 = "callBrea\u212a".runes ∧
    (operationId "callBrea\u212a".runes).1 = "callBrea".runes := by decide +kernel

end Catalog

end ApiPrep
