import ApiPrep.Proofs.Normalized.Group
import ApiPrep.Proofs.Path.Grammar

namespace ApiPrep

open Outcome

variable {c : Catalog} {s : Settings}

def Operation.pathFault? (op : Operation) : Option Path.Fault := fault? (Path.interpolate op.path)

theorem Operation.pathFault?_path {op : Operation} {f : Path.Fault} (h : op.pathFault? = some f) :
    f.path = op.path := by
  rw [pathFault?, fault?_eq_some_iff, Path.interpolate, Path.interpolateWith] at h
  cases ht : Path.Template.ofPath op.path with
  | ok t => rw [ht] at h; cases h
  | error fault =>
    rw [ht] at h
    cases h
    exact Path.Template.ofPath_error_path ht

theorem Operation.fault?_decorate (op : Operation) : fault? op.decorate = op.pathFault? := by
  rw [decorate, pathFault?]
  cases Path.interpolate op.path <;> rfl

theorem Operation.decorate_of_interpolate {op : Operation} {path : Text}
    (h : Path.interpolate op.path = .ok path) : ∃ r, op.decorate = .ok r ∧ op.RendersAs r :=
  have hr := decorate_eq_ok_iff.2 ⟨path, h, rfl⟩
  ⟨_, hr, rendersAs_of_decorate hr⟩

theorem Promotion.exists_creation {operations : List Operation}
    (h : unclaimed c (c.claims operations).value = []) :
    ∃ creation, creationOf? c operations (c.claims operations).value = some creation := by
  have hcov := unclaimed_eq_nil_iff.1 h
  rw [creationOf?_of_covered hcov]
  exact Option.isSome_iff_exists.1 (List.find?_isSome.2 (hcov _ c.creationSignature_mem))

namespace OperationGroup

theorem fault?_normalize (c : Catalog) (s : Settings) (g : OperationGroup) :
    fault? (g.normalize c s).run.value = (g.surviving c s).findSome? Operation.pathFault? := by
  simp only [normalize_value, fault?_map, fault?_mapM, Operation.fault?_decorate]

theorem normalize_ok_of_paths {g : OperationGroup}
    (h : ∀ op ∈ g.surviving c s, ∃ path, Path.interpolate op.path = .ok path) :
    ∃ out, (g.normalize c s).run.value = .ok out := by
  rw [← fault?_eq_none_iff, fault?_normalize, List.findSome?_eq_none_iff]
  exact fun op hop => fault?_eq_none_iff.2 (h op hop)

theorem surviving_of_promotion {g : OperationGroup} {p : Promotion}
    (hp : g.promotion c s = some p) : g.surviving c s = p.remaining := by
  rw [surviving, hp]
  rfl

end OperationGroup

theorem ImportRecord.read_source (source : Text) :
    form.read (.map [(.text "import", .text source)]) = .ok { source := source } := rfl

namespace InputDocument

def surviving (c : Catalog) (s : Settings) (d : InputDocument) : List Operation :=
  d.groups.flatMap fun g => g.surviving c s

theorem normalize_value (c : Catalog) (s : Settings) (d : InputDocument) :
    (d.normalize c s).run.value =
      (d.groups.mapM fun g => (OperationGroup.normalize c s g).run.value).map fun groups =>
        ⟨groups, d.models.map (·.resolve s.fileNames)⟩ := by
  simp only [normalize, Traced.value_run_bind, Traced.value_run_mapM, Traced.value_run_pure]
  rfl

theorem fault?_normalize (c : Catalog) (s : Settings) (d : InputDocument) :
    fault? (d.normalize c s).run.value = (d.surviving c s).findSome? Operation.pathFault? := by
  rw [normalize_value, fault?_map, fault?_mapM, surviving]
  simp only [OperationGroup.fault?_normalize]
  induction d.groups with
  | nil => rfl
  | cons g groups ih =>
    rw [List.findSome?_cons, List.flatMap_cons, List.findSome?_append, ih]
    cases (g.surviving c s).findSome? Operation.pathFault? <;> rfl

theorem normalize_fails_iff {d : InputDocument} :
    (∃ f, (d.normalize c s).run.value = .error f) ↔
      ∃ g ∈ d.groups, ∃ op ∈ g.surviving c s, ∃ f, Path.interpolate op.path = .error f := by
  simp only [← fault?_eq_some_iff, fault?_normalize, ← Option.isSome_iff_exists,
    List.findSome?_isSome_iff, surviving, List.mem_flatMap]
  constructor
  · rintro ⟨op, ⟨g, hg, hop⟩, hf⟩
    exact ⟨g, hg, op, hop, hf⟩
  · rintro ⟨g, hg, op, hop, hf⟩
    exact ⟨op, ⟨g, hg, hop⟩, hf⟩

theorem normalize_eq_error_iff {d : InputDocument} {f : Path.Fault} :
    (d.normalize c s).run.value = .error f ↔
      ∃ before op after, d.surviving c s = before ++ op :: after ∧
        (∀ earlier ∈ before, ∃ path, Path.interpolate earlier.path = .ok path) ∧
        Path.interpolate op.path = .error f ∧ f.path = op.path := by
  rw [← fault?_eq_some_iff, fault?_normalize, List.findSome?_eq_some_iff]
  constructor
  · rintro ⟨before, op, after, hs, hf, hb⟩
    exact ⟨before, op, after, hs, fun earlier he => fault?_eq_none_iff.1 (hb earlier he),
      fault?_eq_some_iff.1 hf, Operation.pathFault?_path hf⟩
  · rintro ⟨before, op, after, hs, hb, hf, _⟩
    exact ⟨before, op, after, hs, fault?_eq_some_iff.2 hf,
      fun earlier he => fault?_eq_none_iff.2 (hb earlier he)⟩

/-- A document fails to be normalised iff an operation that is rendered has a path that is no
template. The first such operation, group after group, gives the fault. A removed operation has no
part in this, and neither has any other step: the creation of a covered group is found, and what is
written on the way is read again, be it an operation or an import. -/
theorem normalize_fails_with_first_path (c : Catalog) (s : Settings) (d : InputDocument) :
    ((∃ f, (d.normalize c s).run.value = .error f) ↔
      ∃ g ∈ d.groups, ∃ op ∈ g.surviving c s, ∃ f, Path.interpolate op.path = .error f) ∧
    (∀ f, (d.normalize c s).run.value = .error f ↔
      ∃ before op after, (d.groups.flatMap fun g => g.surviving c s) = before ++ op :: after ∧
        (∀ earlier ∈ before, ∃ path, Path.interpolate earlier.path = .ok path) ∧
        Path.interpolate op.path = .error f ∧ f.path = op.path) ∧
    (∀ g ∈ d.groups, ∀ p, g.promotion c s = some p →
      (∀ op ∈ p.remaining, ∃ path, Path.interpolate op.path = .ok path) →
        ∃ out, (g.normalize c s).run.value = .ok out) ∧
    (∀ g ∈ d.groups, Promotion.unclaimed c (c.claims g.operations).value = [] →
      ∃ creation, Promotion.creationOf? c g.operations (c.claims g.operations).value =
        some creation) ∧
    (∀ g ∈ d.groups, ∀ op ∈ g.surviving c s, ∀ path, Path.interpolate op.path = .ok path →
      ∃ r, op.decorate = .ok r ∧ op.RendersAs r) ∧
    ∀ g ∈ d.groups, ∀ name ∈ importedTypes g.operations,
      ImportRecord.form.read (.map [(.text "import", .text (s.fileNames.modelImport name))]) =
        .ok { source := s.fileNames.modelImport name } := by
  refine ⟨normalize_fails_iff, fun f => normalize_eq_error_iff, ?_,
    fun _ _ => Promotion.exists_creation, fun _ _ _ _ _ => Operation.decorate_of_interpolate,
    fun _ _ _ _ => ImportRecord.read_source _⟩
  intro g _ p hp hpaths
  exact OperationGroup.normalize_ok_of_paths (OperationGroup.surviving_of_promotion hp ▸ hpaths)

end InputDocument

end ApiPrep
