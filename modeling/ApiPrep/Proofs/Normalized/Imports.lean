import ApiPrep.Normalized.Normalize

namespace ApiPrep

variable {p : Promotion} {envelopes needed : List Text} {name : Text}

namespace Promotion

def Needs (p : Promotion) (name : Text) : Prop :=
  name = p.entityType ∨ name ≠ "" ∧ ∃ op ∈ p.remaining, op.returnBaseType = some name

instance : Decidable (p.Needs name) := inferInstanceAs (Decidable (_ ∨ _))

theorem mem_neededEnvelopes :
    name ∈ neededEnvelopes p.remaining (some p.entityType) envelopes ↔
      name ∈ envelopes ∧ p.Needs name := by
  simp only [neededEnvelopes, Needs, List.mem_filter, List.contains_eq_mem, List.mem_filterMap,
    Bool.or_eq_true, beq_iff_eq, Option.some.injEq, decide_eq_true_eq, ne_eq]
  rw [and_comm (a := ¬ name = "")]

end Promotion

/-- A record is kept unless its class is an envelope that is not needed. -/
def ImportRecord.Kept (envelopes needed : List Text) (r : ImportRecord) : Prop :=
  ∀ name ∈ r.classname, name ∈ envelopes → name ∈ needed

instance (r : ImportRecord) : Decidable (r.Kept envelopes needed) :=
  inferInstanceAs (Decidable (∀ name ∈ r.classname, _))

theorem pruneImports_value (envelopes needed : List Text) (records : List ImportRecord) :
    (pruneImports envelopes needed records).value =
      records.filter fun r => r.Kept envelopes needed := by
  induction records with
  | nil => rfl
  | cons r rest ih =>
    have hkept : r.Kept envelopes needed ↔ r.classname.filter
        (fun name => envelopes.contains name && !needed.contains name) = none := by
      simp only [ImportRecord.Kept, Option.filter_eq_none_iff, List.contains_eq_mem,
        Bool.and_eq_true, decide_eq_true_eq, Bool.not_eq_true', decide_eq_false_iff_not, not_and,
        Decidable.not_not, Option.mem_def]
    rw [pruneImports]
    split
    · next name hdropped =>
      have hr : ¬ r.Kept envelopes needed := fun h => by
        rw [hkept.1 h] at hdropped
        cases hdropped
      rw [List.filter_cons_of_neg (by rwa [decide_eq_true_eq]), Traced.bind_eq]
      exact ih
    · next hdropped =>
      rw [List.filter_cons_of_pos (by rw [decide_eq_true_eq]; exact hkept.2 hdropped),
        Traced.bind_eq, ih]
      rfl

theorem ImportRecord.kept_resolve (p : Promotion) (envelopes : List Text) (f : Naming.FileNames)
    (r : ImportRecord) :
    (r.resolve f).Kept envelopes (neededEnvelopes p.remaining (some p.entityType) envelopes) ↔
      (f.modelOfFile r.source ∈ envelopes → p.Needs (f.modelOfFile r.source)) := by
  constructor
  · intro h hm
    exact (Promotion.mem_neededEnvelopes.1 (h _ rfl hm)).2
  · intro h name hname hm
    obtain rfl : f.modelOfFile r.source = name := Option.some.inj hname
    exact Promotion.mem_neededEnvelopes.2 ⟨hm, h hm⟩

theorem pruned_resolve (s : Settings) (p : Promotion) (records : List ImportRecord) :
    (OperationGroup.pruned s (some p) p.remaining (records.map (·.resolve s.fileNames))).value =
      (records.filter fun r => s.fileNames.modelOfFile r.source ∈ s.envelopeTypes →
        p.Needs (s.fileNames.modelOfFile r.source)).map (·.resolve s.fileNames) := by
  rw [OperationGroup.pruned, pruneImports_value, List.filter_map]
  refine congrArg (List.map _) (List.filter_congr fun r _ => ?_)
  exact decide_eq_decide.2 (ImportRecord.kept_resolve p s.envelopeTypes s.fileNames r)

end ApiPrep
