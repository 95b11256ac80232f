import ApiPrep.Proofs.Document.Lossless
import ApiPrep.Proofs.Record.Indifferent
import ApiPrep.Proofs.Value.Spelled

namespace ApiPrep

open Record Form

section

variable {labels : List Label} {v : Value} {depth : Nat}

/-! ### What does not depend on the spelling of keys -/

theorem Entries.obstacle?_wireKey (labels : List Label) (entries : Entries) (s : Scalar) :
    (wireKey labels entries s).obstacle? = s.obstacle? := by
  cases s with
  | text key =>
    rw [wireKey]
    split
    · split <;> rfl
    · rfl
  | _ => rfl

theorem itemsObstacle_map {f : Value → Value} {around : List Nat} {items : List Value}
    (h : ∀ v ∈ items, (f v).obstacleWithin around depth = v.obstacleWithin around depth) :
    itemsObstacle around depth (items.map f) = itemsObstacle around depth items := by
  induction items with
  | nil => rfl
  | cons item rest ih =>
    obtain ⟨hitem, hrest⟩ := List.forall_mem_cons.1 h
    rw [List.map_cons, itemsObstacle, itemsObstacle, hitem, ih hrest]

theorem entriesObstacle_map {f : Value → Value} {g : Scalar → Scalar} {around : List Nat}
    {entries : Entries} (hg : ∀ s, (g s).obstacle? = s.obstacle?)
    (h : ∀ entry ∈ entries,
      (f entry.2).obstacleWithin around depth = entry.2.obstacleWithin around depth) :
    entriesObstacle around depth ((entries.mapValues f).mapKeys g) =
      entriesObstacle around depth entries := by
  induction entries with
  | nil => rfl
  | cons entry rest ih =>
    obtain ⟨hentry, hrest⟩ := List.forall_mem_cons.1 h
    change entriesObstacle around depth ((g entry.1, f entry.2) :: _) = _
    rw [entriesObstacle, entriesObstacle, hg, hentry]
    exact congrArg _ (ih hrest)

namespace Value

theorem given_onWire (labels : List Label) (v : Value) : (v.onWire labels).given = v.given := by
  induction v using partwise with
  | list items => rw [onWire_list, given, given, List.isEmpty_map]
  | map entries =>
    rw [onWire_map, Entries.onWire, Entries.wireKeys, Entries.mapKeys, Entries.mapValues, given,
      given, List.isEmpty_map, List.isEmpty_map]
  | marked mark v ih => exact ih
  | _ => rfl

theorem obstacleWithin_onWire (labels : List Label) (around : List Nat) (depth : Nat) (v : Value) :
    (v.onWire labels).obstacleWithin around depth = v.obstacleWithin around depth := by
  induction v using partwise generalizing around depth with
  | list items ih =>
    rw [onWire_list, obstacleWithin, obstacleWithin]
    refine congrArg (opening depth) (funext fun depth => ?_)
    exact itemsObstacle_map fun v hv => ih v hv around depth
  | map entries ih =>
    rw [onWire_map, obstacleWithin, obstacleWithin]
    refine congrArg (opening depth) (funext fun depth => ?_)
    exact entriesObstacle_map (Entries.obstacle?_wireKey labels _)
      fun entry hentry => ih entry hentry around depth
  | pair key held ihk ihh => simp only [onWire, obstacleWithin, ihk, ihh]
  | marked mark v ih => simp only [onWire, obstacleWithin, ih]
  | _ => rfl

theorem obstacle?_onWire (labels : List Label) (v : Value) :
    (v.onWire labels).obstacle? = v.obstacle? := obstacleWithin_onWire labels [] mostOpen v

theorem onWire_eq_scalar_iff {s : Scalar} : v.onWire labels = .scalar s ↔ v = .scalar s := by
  cases v with
  | scalar => exact Iff.rfl
  | list items =>
    rw [onWire_list]
    exact iff_of_false nofun nofun
  | map entries =>
    rw [onWire_map]
    exact iff_of_false nofun nofun
  | _ => exact iff_of_false nofun nofun

theorem blank_plain_onWire (labels : List Label) (v : Value) :
    Text.blank (v.onWire labels).plain.toList = Text.blank v.plain.toList := by
  rw [Bool.eq_iff_iff, blank_plain_iff, blank_plain_iff]
  simp only [onWire_eq_scalar_iff]

end Value

end

/-! ### The labels of a document -/

def InputDocument.labels : List Label :=
  InputDocument.slots.map (·.member.label) ++ OperationGroup.slots.map (·.member.label) ++
    Operation.slots.map (·.member.label) ++ Parameter.slots.map (·.member.label) ++
    ImportRecord.slots.map (·.member.label) ++ SchemaModel.slots.map (·.member.label)

namespace InputDocument

theorem labels_distinct : Distinct labels := by
  unfold Distinct
  decide +kernel

theorem optionalText_indifferent : (Form.optional Form.text).Indifferent labels :=
  optional_indifferent text_indifferent

theorem textList_indifferent : (Form.list Form.text).Indifferent labels :=
  list_indifferent text_indifferent

variable {α β : Type} {m : Member α} {entries : Entries}

theorem first_onWire {f : α → β} (hm : m.label ∈ labels) (h : m.form.Indifferent labels) :
    (f <$> m.read (entries.onWire labels)).Agrees (f <$> m.read entries) :=
  (m.read_onWire labels_distinct hm h entries).fmap f

theorem next_onWire {f g : Checked (α → β)} (hfg : f.Agrees g) (hm : m.label ∈ labels)
    (h : m.form.Indifferent labels) :
    (f <*> m.read (entries.onWire labels)).Agrees (g <*> m.read entries) :=
  hfg.ap (m.read_onWire labels_distinct hm h entries)

end InputDocument

open InputDocument (labels first_onWire next_onWire optionalText_indifferent textList_indifferent)

-- The fields of each record are taken off from the last to the first.

theorem Parameter.form_indifferent : Parameter.form.Indifferent labels := by
  apply record_indifferent
  intro entries
  apply next_onWire _ (by decide) optionalText_indifferent
  apply next_onWire _ (by decide) flag_indifferent
  iterate 3 apply next_onWire _ (by decide) optionalText_indifferent
  exact first_onWire (by decide) optionalText_indifferent

theorem parameterList_indifferent : (Form.list Parameter.form).Indifferent labels :=
  list_indifferent Parameter.form_indifferent

theorem Operation.form_indifferent : Operation.form.Indifferent labels := by
  apply record_indifferent
  intro entries
  apply next_onWire _ (by decide) textList_indifferent
  iterate 3 apply next_onWire _ (by decide) optionalText_indifferent
  apply next_onWire _ (by decide) (optional_indifferent flag_indifferent)
  iterate 4 apply next_onWire _ (by decide) parameterList_indifferent
  apply next_onWire _ (by decide) textList_indifferent
  iterate 2 apply next_onWire _ (by decide) optionalText_indifferent
  iterate 2 apply next_onWire _ (by decide) text_indifferent
  exact first_onWire (by decide) text_indifferent

theorem ImportRecord.form_indifferent : ImportRecord.form.Indifferent labels := by
  apply record_indifferent
  intro entries
  iterate 2 apply next_onWire _ (by decide) optionalText_indifferent
  exact first_onWire (by decide) text_indifferent

theorem OperationGroup.form_indifferent : OperationGroup.form.Indifferent labels := by
  apply record_indifferent
  intro entries
  apply next_onWire _ (by decide) (list_indifferent ImportRecord.form_indifferent)
  apply next_onWire _ (by decide) (list_indifferent Operation.form_indifferent)
  exact first_onWire (by decide) text_indifferent

theorem SchemaModel.form_indifferent : SchemaModel.form.Indifferent labels := by
  apply record_indifferent
  intro entries
  apply next_onWire _ (by decide) flag_indifferent
  apply next_onWire _ (by decide) textList_indifferent
  apply next_onWire _ (by decide) optionalText_indifferent
  exact first_onWire (by decide) text_indifferent

/-- A document is read alike however its keys are spelled. -/
theorem InputDocument.form_indifferent : InputDocument.form.Indifferent labels := by
  apply record_indifferent
  intro entries
  apply next_onWire _ (by decide) (list_indifferent SchemaModel.form_indifferent)
  exact first_onWire (by decide) (list_indifferent OperationGroup.form_indifferent)

end ApiPrep
