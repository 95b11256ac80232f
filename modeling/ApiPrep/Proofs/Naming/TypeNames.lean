import ApiPrep.Normalized.Imports
import ApiPrep.Proofs.Text.Pieces
import Mathlib.Data.List.Sort
import ApiPrep.Proofs.Text.Order

namespace ApiPrep

variable {entries names : List Text} {operations : List Operation} {entry name : Text}

namespace Naming

/-! ### Names in order -/

theorem mem_insertName {other : Text} :
    other ∈ insertName name names ↔ other = name ∨ other ∈ names := by
  induction names with
  | nil => exact List.mem_cons
  | cons n rest ih =>
    rw [insertName]
    split
    · exact List.mem_cons
    · split
      · next he =>
        rw [he]
        exact (or_iff_right_of_imp fun h => h ▸ List.mem_cons_self).symm
      · rw [List.mem_cons, ih, List.mem_cons, or_left_comm]

theorem mem_foldr_insertName : name ∈ names.foldr insertName [] ↔ name ∈ names := by
  induction names with
  | nil => exact Iff.rfl
  | cons n rest ih => rw [List.foldr_cons, mem_insertName, ih, List.mem_cons]

theorem pairwise_insertName (h : names.Pairwise (· < ·)) :
    (insertName name names).Pairwise (· < ·) := by
  induction names with
  | nil => exact List.pairwise_singleton _ name
  | cons n rest ih =>
    obtain ⟨hn, hrest⟩ := List.pairwise_cons.1 h
    rw [insertName]
    split
    · next hlt =>
      refine List.pairwise_cons.2 ⟨List.forall_mem_cons.2 ⟨hlt, fun m hm => ?_⟩, h⟩
      exact lt_trans hlt (hn m hm)
    · next hge =>
      split
      · exact h
      · next hne =>
        refine List.pairwise_cons.2 ⟨fun m hm => ?_, ih hrest⟩
        rcases mem_insertName.1 hm with rfl | hm
        · exact lt_of_le_of_ne (not_lt.1 hge) (Ne.symm hne)
        · exact hn m hm

theorem pairwise_typeNames (entries : List Text) : (typeNames entries).Pairwise (· < ·) := by
  rw [typeNames]
  induction (entries.flatMap namesOf).filter isImported with
  | nil => exact List.Pairwise.nil
  | cons name names ih => exact pairwise_insertName ih

theorem mem_typeNames : name ∈ typeNames entries ↔
    (∃ entry ∈ entries, name ∈ namesOf entry) ∧ isImported name = true := by
  rw [typeNames, mem_foldr_insertName, List.mem_filter, List.mem_flatMap]

theorem typeNames_ext {others : List Text}
    (h : ∀ name, name ∈ typeNames others ↔ name ∈ typeNames entries) :
    typeNames others = typeNames entries :=
  (pairwise_typeNames others).eq_of_mem_iff (pairwise_typeNames entries) h

theorem typeNames_congr {others : List Text} (h : ∀ entry, entry ∈ others ↔ entry ∈ entries) :
    typeNames others = typeNames entries := by
  refine typeNames_ext fun name => ?_
  simp only [mem_typeNames, h]

/-! ### Names in entries -/

def Names (entry name : Text) : Prop :=
  ∃ pieces, [Rune.char '|'].intercalate pieces = entry.toList ∧ (∀ q ∈ pieces, .char '|' ∉ q) ∧
    ∃ piece ∈ pieces, Text.Stripped Text.isBlank piece name.toList

theorem mem_namesOf_iff_trim : name ∈ namesOf entry ↔
    ∃ piece ∈ Text.splitBy (· == .char '|') entry.toList, Text.trim piece = name.toList := by
  rw [namesOf, List.mem_map]
  refine exists_congr fun piece => and_congr_right fun _ => ?_
  rw [← Text.toList_inj, Text.toList_ofList]

theorem mem_namesOf_iff : name ∈ namesOf entry ↔ Names entry name := by
  simp only [mem_namesOf_iff_trim, Text.mem_splitBy_iff, Text.trim, Text.trimBy_eq_iff, Names]
  constructor
  · rintro ⟨piece, ⟨pieces, hentry, hplain, hpiece⟩, hname⟩
    exact ⟨pieces, hentry, hplain, piece, hpiece, hname⟩
  · rintro ⟨pieces, hentry, hplain, piece, hpiece, hname⟩
    exact ⟨piece, ⟨pieces, hentry, hplain, hpiece⟩, hname⟩

theorem namesOf_name (h : name ∈ namesOf entry) : namesOf name = [name] := by
  obtain ⟨piece, hpiece, hname⟩ := mem_namesOf_iff_trim.1 h
  obtain ⟨lead, trail, happend, -, hhead, hlast⟩ := Text.trimBy_eq_iff.1 hname
  have hplain : ∀ c ∈ name.toList, (c == .char '|') = false := by
    intro c hc
    refine Text.plain_of_mem_splitBy hpiece c (happend ▸ ?_)
    exact List.mem_append_left trail (List.mem_append_right lead hc)
  rw [namesOf, Text.splitBy_plain hplain, List.map_singleton, Text.trim,
    Text.trimBy_eq_self hhead hlast, Text.ofList_toList]

theorem namesOf_intercalate {group : List Text} (hne : group ≠ []) :
    namesOf (Text.intercalate "|" group) = group.flatMap namesOf := by
  have hpieces : group.map Text.toList ≠ [] := mt List.map_eq_nil_iff.1 hne
  rw [namesOf, Text.toList_intercalate]
  change (Text.splitBy (· == Rune.char '|') ([Rune.char '|'].intercalate _)).map _ = _
  rw [Text.splitBy_intercalate ('|') hpieces, List.flatMap_map, List.map_flatMap]
  rfl

theorem isImported_iff : isImported name = true ↔ name ≠ "" ∧ name ∉ primitiveTypes := by
  rw [isImported, Bool.and_eq_true, decide_eq_true_eq, Bool.not_eq_true', List.contains_eq_mem,
    decide_eq_false_iff_not]

/-! ### Names of entries -/

theorem typeNames_joined (groups : List (List Text)) :
    typeNames (groups.map (Text.intercalate "|" ·)) = typeNames groups.flatten := by
  refine typeNames_ext fun name => ?_
  rw [mem_typeNames, mem_typeNames]
  refine and_congr_left fun himported => ?_
  have hgroup (group : List Text) : name ∈ namesOf (Text.intercalate "|" group) ↔
      ∃ entry ∈ group, name ∈ namesOf entry := by
    rcases Decidable.eq_or_ne group [] with rfl | hne
    · refine iff_of_false (fun h => ?_) fun ⟨_, h, _⟩ => List.not_mem_nil h
      exact (isImported_iff.1 himported).1 (List.mem_singleton.1 h)
    · rw [namesOf_intercalate hne, List.mem_flatMap]
  constructor
  · rintro ⟨_, hentry, hname⟩
    obtain ⟨group, hg, rfl⟩ := List.mem_map.1 hentry
    obtain ⟨entry, he, hname⟩ := (hgroup group).1 hname
    exact ⟨entry, List.mem_flatten_of_mem hg he, hname⟩
  · rintro ⟨entry, hentry, hname⟩
    obtain ⟨group, hg, he⟩ := List.mem_flatten.1 hentry
    exact ⟨_, List.mem_map_of_mem hg, (hgroup group).2 ⟨entry, he, hname⟩⟩

theorem typeNames_typeNames (entries : List Text) :
    typeNames (typeNames entries) = typeNames entries := by
  refine typeNames_ext fun name => ?_
  have hself {n : Text} (h : n ∈ typeNames entries) : namesOf n = [n] := by
    obtain ⟨⟨entry, -, hn⟩, -⟩ := mem_typeNames.1 h
    exact namesOf_name hn
  constructor
  · intro h
    obtain ⟨⟨n, hn, hname⟩, -⟩ := mem_typeNames.1 h
    rw [hself hn, List.mem_singleton] at hname
    exact hname ▸ hn
  · intro h
    refine mem_typeNames.2 ⟨⟨name, h, ?_⟩, (mem_typeNames.1 h).2⟩
    rw [hself h]
    exact List.mem_singleton_self name

end Naming

/-! ### Types of operations and models -/

theorem mem_importedTypes :
    name ∈ importedTypes operations ↔ ∃ op ∈ operations, name ∈ Naming.typeNames op.imports := by
  simp only [importedTypes, Naming.mem_typeNames, List.mem_flatMap]
  constructor
  · rintro ⟨⟨entry, ⟨op, hop, hentry⟩, hname⟩, himported⟩
    exact ⟨op, hop, ⟨entry, hentry, hname⟩, himported⟩
  · rintro ⟨op, hop, ⟨entry, hentry, hname⟩, himported⟩
    exact ⟨⟨entry, ⟨op, hop, hentry⟩, hname⟩, himported⟩

theorem importedTypes_perm {others : List Operation} (h : operations.Perm others) :
    importedTypes operations = importedTypes others :=
  Naming.typeNames_congr fun _ => (h.flatMap_right _).mem_iff

namespace SchemaModel

variable (f : Naming.FileNames) (m : SchemaModel)

theorem mem_resolve {i : ModelImport} : i ∈ (m.resolve f).imports ↔
    i.classname ∈ Naming.typeNames m.imports ∧ i.classname ≠ m.classname ∧
      i.filename = f.modelFile i.classname := by
  simp only [resolve, List.mem_map, List.mem_filter, decide_eq_true_eq, and_assoc]
  constructor
  · rintro ⟨name, hname, hother, rfl⟩
    exact ⟨hname, hother, rfl⟩
  · rintro ⟨hname, hother, hfile⟩
    exact ⟨i.classname, hname, hother, congrArg (ModelImport.mk i.classname) hfile.symm⟩

theorem pairwise_resolve : ((m.resolve f).imports.map (·.classname)).Pairwise (· < ·) := by
  rw [resolve, List.map_map, List.pairwise_map]
  exact (Naming.pairwise_typeNames m.imports).filter _

end SchemaModel

namespace Naming

/-- The names of types are in order of their code points, each once, and are those that the entries
name: neither the order of entries nor how often they come matters, nor whether they are joined. So
the types of operations do not depend on the order of these, and a model imports what it names but
itself. -/
theorem typeNames_canonical (entries : List Text) :
    (typeNames entries).Pairwise (· < ·) ∧
    (∀ name, name ∈ typeNames entries ↔
      name ≠ "" ∧ name ∉ primitiveTypes ∧ ∃ entry ∈ entries, Names entry name) ∧
    (∀ others, (∀ entry, entry ∈ others ↔ entry ∈ entries) →
      typeNames others = typeNames entries) ∧
    (∀ groups : List (List Text), groups.flatten = entries →
      typeNames (groups.map (Text.intercalate "|" ·)) = typeNames entries) ∧
    typeNames (typeNames entries) = typeNames entries ∧
    (∀ operations others : List Operation, operations.Perm others →
      importedTypes operations = importedTypes others) ∧
    ∀ (f : FileNames) (m : SchemaModel), (m.resolve f).model = m ∧
      ((m.resolve f).imports.map (·.classname)).Pairwise (· < ·) ∧
      ∀ i, i ∈ (m.resolve f).imports ↔ i.classname ∈ typeNames m.imports ∧
        i.classname ≠ m.classname ∧ i.filename = f.modelFile i.classname := by
  refine ⟨pairwise_typeNames entries, fun name => ?_, fun others h => typeNames_congr h, ?_,
    typeNames_typeNames entries, fun operations others h => importedTypes_perm h, fun f m => ?_⟩
  · simp only [mem_typeNames, mem_namesOf_iff, isImported_iff]
    rw [and_comm, and_assoc]
  · rintro groups rfl
    exact typeNames_joined groups
  · exact ⟨rfl, m.pairwise_resolve f, fun i => m.mem_resolve f⟩

def swapping (taken other : Text) : Operation where
  operationId := "swap" ++ taken
  httpMethod := "put"
  path := "/Api/" ++ taken
  imports := [other ++ " | " ++ taken, "string"]

def listedNames : List Text := ["Widget | Gadget", "string", "Widget"]

def reorderedNames : List Text := ["Widget", "string", "Widget", "Widget | Gadget"]

def groupedNames : List (List Text) := [["Widget | Gadget", "string"], ["Widget"]]

theorem typeNames_canonical_union :
    (∀ entry, entry ∈ reorderedNames ↔ entry ∈ listedNames) ∧
    typeNames reorderedNames = (["Gadget", "Widget"] : List Text) ∧
    groupedNames.flatten = listedNames ∧
    typeNames ["Widget | Gadget|string", "Widget"] = (["Gadget", "Widget"] : List Text) ∧
    importedTypes [swapping "Widget" "Gadget", swapping "Gadget" "Widget"] =
      importedTypes [swapping "Gadget" "Widget", swapping "Widget" "Gadget"] := by
  obtain ⟨-, -, hcongr, hjoined, -, hperm, -⟩ := typeNames_canonical listedNames
  have hnames : typeNames listedNames = (["Gadget", "Widget"] : List Text) := by decide +kernel
  have hmem : ∀ entry, entry ∈ reorderedNames ↔ entry ∈ listedNames := by
    intro entry
    simp only [reorderedNames, listedNames, List.mem_cons, List.not_mem_nil, or_false]
    tauto
  have hgroups : groupedNames.map (Text.intercalate "|" ·) =
      (["Widget | Gadget|string", "Widget"] : List Text) := by decide +kernel
  refine ⟨hmem, (hcongr _ hmem).trans hnames, rfl, ?_, hperm _ _ (List.Perm.swap _ _ _)⟩
  rw [← hgroups, hjoined _ rfl, hnames]

end Naming
end ApiPrep
