import ApiPrep.Record.Form
import Mathlib.Data.List.Forall2

namespace ApiPrep.Record

variable {α β : Type}

theorem Checked.fmap_eq_ok_iff {f : α → β} {x : Checked α} {b : β} :
    f <$> x = .ok b ↔ ∃ a, x = .ok a ∧ f a = b := Checked.map_eq_ok_iff

theorem Checked.ap_eq_ok_iff {f : Checked (α → β)} {x : Checked α} {b : β} :
    f <*> x = .ok b ↔ ∃ g a, f = .ok g ∧ x = .ok a ∧ g a = b := Checked.seq_eq_ok_iff

theorem Checked.fmap_faulty_iff {f : α → β} {x : Checked α} :
    (∃ issues, f <$> x = .faulty issues) ↔ ∃ issues, x = .faulty issues := by
  cases x with
  | ok a => exact iff_of_false nofun nofun
  | faulty issues => exact iff_of_true ⟨issues, rfl⟩ ⟨issues, rfl⟩

theorem Checked.ap_faulty_iff {f : Checked (α → β)} {x : Checked α} :
    (∃ issues, f <*> x = .faulty issues) ↔
      (∃ issues, f = .faulty issues) ∨ ∃ issues, x = .faulty issues := by
  cases f with
  | ok g =>
    cases x with
    | ok a => exact iff_of_false nofun (by rintro (⟨_, h⟩ | ⟨_, h⟩) <;> cases h)
    | faulty issues => exact iff_of_true ⟨issues, rfl⟩ (.inr ⟨issues, rfl⟩)
  | faulty issues =>
    cases x with
    | ok a => exact iff_of_true ⟨issues, rfl⟩ (.inl ⟨issues, rfl⟩)
    | faulty others => exact iff_of_true ⟨issues ++ others, rfl⟩ (.inl ⟨issues, rfl⟩)

theorem Form.record_read_iff {title : Text} {read : Entries → Checked α}
    {write : Spelling → α → Entries} {v : Value} {a : α} :
    (Form.record title read write).read v = .ok a ↔
      ∃ entries, v.entries? = some entries ∧ read entries = .ok a := by
  simp only [Form.record, Value.entries?]
  cases v.opened with
  | map entries =>
    constructor
    · intro h
      exact ⟨entries, rfl, h⟩
    · rintro ⟨_, he, h⟩
      rw [Option.some.inj he]
      exact h
  | _ =>
    constructor
    · intro h
      cases h
    · rintro ⟨_, he, _⟩
      cases he

theorem Form.record_read_scalar {title : Text} {read : Entries → Checked α}
    {write : Spelling → α → Entries} {s : Scalar} {a : α} :
    (Form.record title read write).read (.scalar s) ≠ .ok a := nofun

theorem Form.readItems_iff {read : Value → Checked α} {index : Nat} {items : List Value}
    {as : List α} :
    Form.readItems read index items = .ok as ↔
      List.Forall₂ (fun v a => read v = .ok a) items as := by
  induction items generalizing index as with
  | nil =>
    rw [readItems, List.forall₂_nil_left_iff]
    exact ⟨fun h => (Checked.ok.inj h).symm, fun h => congrArg Checked.ok h.symm⟩
  | cons item rest ih =>
    rw [readItems, Checked.seq_eq_ok_iff, List.forall₂_cons_left_iff]
    constructor
    · rintro ⟨f, bs, hf, hbs, rfl⟩
      obtain ⟨b, hb, rfl⟩ := Checked.map_eq_ok_iff.1 hf
      exact ⟨b, bs, Checked.within_eq_ok_iff.1 hb, ih.1 hbs, rfl⟩
    · rintro ⟨b, bs, hb, hbs, rfl⟩
      exact ⟨List.cons b, bs, Checked.map_eq_ok_iff.2 ⟨b, Checked.within_eq_ok_iff.2 hb, rfl⟩,
        ih.2 hbs, rfl⟩

namespace Member

variable {m : Member α} {entries : Entries} {v : Value}

theorem read_wire (hv : entries.get? m.label.wire = some v) :
    m.read entries = (m.form.read v).within (.key m.label.wire) := by
  rw [read, Label.find?, hv]

theorem read_plain (hn : entries.get? m.label.wire = none)
    (hv : entries.get? m.label.plain = some v) :
    m.read entries = (m.form.read v).within (.key m.label.plain) := by
  rw [read, Label.find?, hn, hv]
  rfl

theorem read_absent {a : α} (ha : m.absent = some a) (hn : entries.get? m.label.wire = none)
    (hp : entries.get? m.label.plain = none) : m.read entries = .ok a := by
  rw [read, Label.find?, hn, hp, ha]
  rfl

end Member

end ApiPrep.Record
