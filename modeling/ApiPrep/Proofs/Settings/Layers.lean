import ApiPrep.Proofs.Json.Objects
import ApiPrep.Settings.Resolve

namespace ApiPrep.Settings

open Outcome

variable {h : Host} {store : Store} {label path : Text} {bytes : List UInt8} {entries : Entries}
  {fields : List (Text × Option Value)}

/-! ### Layers in which values are given -/

theorem get?_given (fields : List (Text × Option Value)) (name : Text) :
    (given fields).get? name = fields.findSome? fun f => if f.1 = name then f.2 else none := by
  induction fields with
  | nil => rfl
  | cons field rest ih =>
    obtain ⟨key, value⟩ := field
    rw [given, List.filterMap_cons, List.findSome?_cons, ← ih]
    cases value with
    | none => rw [ite_self]; rfl
    | some v =>
      change Entries.get? ((.text key, v) :: given rest) name = _
      rw [Entries.get?_cons_text]
      split <;> rfl

theorem keyed_given (hn : (fields.map Prod.fst).Nodup) : (given fields).Keyed := by
  have hkeys : (given fields).keys.Sublist (fields.map fun f => .text f.1) := by
    clear hn
    induction fields with
    | nil => exact List.Sublist.slnil
    | cons field rest ih =>
      obtain ⟨key, value⟩ := field
      cases value with
      | none => exact ih.cons _
      | some v => exact ih.cons_cons _
  refine ⟨fun s hs => ?_, List.Nodup.sublist hkeys ?_⟩
  · obtain ⟨field, -, rfl⟩ := List.mem_map.1 (hkeys.subset hs)
    exact ⟨field.1, rfl⟩
  · have htexts := hn.map fun _ _ he => Scalar.text.inj he
    rwa [List.map_map] at htexts

def Overrides.value? (o : Overrides) (name : Text) : Option Value :=
  if name = "kebab_file_naming" then o.kebab.map .bool
  else if name = "catalog_file" then o.catalog.map .text
  else if name = "output_format" then o.format.map .text
  else none

theorem Overrides.keyed_entries (o : Overrides) : o.entries.Keyed := by
  have hn : (["kebab_file_naming", "catalog_file", "output_format"] : List Text).Nodup := by
    decide
  exact keyed_given hn

theorem Overrides.get?_entries (o : Overrides) (name : Text) :
    o.entries.get? name = o.value? name := by
  rw [entries, get?_given]
  unfold value?
  split
  · next hname =>
    subst hname
    cases o.kebab <;> simp
  split
  · next hname =>
    subst hname
    cases o.catalog <;> simp
  split
  · next hname =>
    subst hname
    cases o.format <;> simp
  · next hkebab hcatalog hformat =>
    simp [Ne.symm hkebab, Ne.symm hcatalog, Ne.symm hformat]

/-! ### The environment -/

def flagWord (value : Text) : Text := Naming.respell (fun s => Text.lower (Text.trim s)) value

/-- The variable for a truth value is set to something that is no word for one. -/
def BadFlag (h : Host) : Prop :=
  ∃ value, h.given? kebabVariable = some value ∧ flagWord value ∉ trueWords ++ falseWords

def environmentValue? (h : Host) (name : Text) : Option Value :=
  if name = "kebab_file_naming" then
    (h.given? kebabVariable).map fun value => .bool (trueWords.contains (flagWord value))
  else if name = "model_package" then (h.given? "OPNORM_MODEL_PACKAGE").map .text
  else if name = "catalog_file" then (h.given? "OPNORM_CATALOG").map .text
  else none

def environmentLayer (h : Host) : Entries :=
  given [("kebab_file_naming",
      (h.given? kebabVariable).map fun value => .bool (trueWords.contains (flagWord value))),
    ("model_package", (h.given? "OPNORM_MODEL_PACKAGE").map .text),
    ("catalog_file", (h.given? "OPNORM_CATALOG").map .text)]

theorem keyed_environmentLayer (h : Host) : (environmentLayer h).Keyed := by
  have hn : (["kebab_file_naming", "model_package", "catalog_file"] : List Text).Nodup := by
    decide
  exact keyed_given hn

theorem get?_environmentLayer (h : Host) (name : Text) :
    (environmentLayer h).get? name = environmentValue? h name := by
  rw [environmentLayer, get?_given]
  unfold environmentValue?
  split
  · next hname =>
    subst hname
    cases h.given? kebabVariable <;> simp
  split
  · next hname =>
    subst hname
    cases h.given? "OPNORM_MODEL_PACKAGE" <;> simp
  split
  · next hname =>
    subst hname
    cases h.given? "OPNORM_CATALOG" <;> simp
  · next hkebab hpackage hcatalog =>
    simp [Ne.symm hkebab, Ne.symm hpackage, Ne.symm hcatalog]

theorem flagOfVariable_of_mem {value : Text}
    (hword : flagWord value ∈ trueWords ++ falseWords) :
    flagOfVariable kebabVariable value = .ok (trueWords.contains (flagWord value)) := by
  rw [flagOfVariable, ← flagWord]
  cases ht : trueWords.contains (flagWord value) with
  | true => rfl
  | false =>
    have hnot : flagWord value ∉ trueWords := by
      rwa [List.contains_eq_mem, decide_eq_false_iff_not] at ht
    have hf : falseWords.contains (flagWord value) = true :=
      List.contains_iff_mem.2 ((List.mem_append.1 hword).resolve_left hnot)
    simp only [hf, Bool.false_eq_true, ↓reduceIte]

theorem flagOfVariable_of_not_mem {value : Text}
    (hword : flagWord value ∉ trueWords ++ falseWords) :
    flagOfVariable kebabVariable value = .error (.badFlag kebabVariable value) := by
  obtain ⟨ht, hf⟩ := not_or.1 (mt List.mem_append.2 hword)
  rw [flagOfVariable, ← flagWord]
  simp only [List.contains_eq_mem, ht, hf, decide_false, Bool.false_eq_true, ↓reduceIte]

theorem ofEnvironment_of_badFlag (hb : BadFlag h) : ∃ value,
    h.given? kebabVariable = some value ∧
      ofEnvironment h = .error (.badFlag kebabVariable value) := by
  obtain ⟨value, hgiven, hword⟩ := hb
  refine ⟨value, hgiven, ?_⟩
  rw [ofEnvironment, hgiven]
  simp only [flagOfVariable_of_not_mem hword]
  rfl

theorem ofEnvironment_of_not_badFlag (hb : ¬BadFlag h) :
    ofEnvironment h = .ok (environmentLayer h) := by
  rw [ofEnvironment, environmentLayer]
  cases hgiven : h.given? kebabVariable with
  | none => rfl
  | some value =>
    have hword : flagWord value ∈ trueWords ++ falseWords :=
      not_not.1 fun hword => hb ⟨value, hgiven, hword⟩
    simp only [flagOfVariable_of_mem hword]
    rfl

/-! ### Files -/

theorem keyed_of_content (hc : ofContent label path bytes = .ok entries) : entries.Keyed := by
  rw [ofContent] at hc
  split at hc
  · cases hc
  · split at hc
    · next text _ _ hread =>
      obtain rfl := Except.ok.inj hc
      exact Json.keyed_of_read hread
    all_goals cases hc

theorem ofFile_of_some (label : Text) {p : Place}
    (hfile : store.file? h.workDir p.text = .ok (some bytes)) :
    ofFile h store label p = (ofContent label p.text bytes).map some := by
  rw [ofFile, hfile]

theorem ofFile_of_none (label : Text) {p : Place}
    (hfile : store.file? h.workDir p.text = .ok none) :
    ofFile h store label p = .ok none := by
  rw [ofFile, hfile]

theorem keyed_of_file {p : Place} (hf : ofFile h store label p = .ok (some entries)) :
    entries.Keyed := by
  rw [ofFile] at hf
  split at hf
  · cases hf
  · cases hf
  · obtain ⟨found, hfound, he⟩ := map_eq_ok_iff.1 hf
    obtain rfl := Option.some.inj he
    exact keyed_of_content hfound

end ApiPrep.Settings
