import ApiPrep.Proofs.Record.Reading
import ApiPrep.Proofs.Record.Respelling

namespace ApiPrep.Record

variable {α β : Type} {labels : List Label} {entries : Entries} {v : Value}

namespace Checked

/-- Whether two results are the same wherever one of them is a value. -/
def Agrees (x y : Checked α) : Prop := ∀ a, x = .ok a ↔ y = .ok a

variable {x y : Checked α}

theorem Agrees.refl (x : Checked α) : x.Agrees x := fun _ => Iff.rfl

theorem Agrees.fmap (h : x.Agrees y) (f : α → β) : (f <$> x).Agrees (f <$> y) := by
  intro b
  simp only [fmap_eq_ok_iff, h _]

theorem Agrees.ap {f g : Checked (α → β)} (hf : f.Agrees g) (h : x.Agrees y) :
    (f <*> x).Agrees (g <*> y) := by
  intro b
  simp only [ap_eq_ok_iff, hf _, h _]

theorem Agrees.within (h : x.Agrees y) (s t : Step) : (x.within s).Agrees (y.within t) := by
  intro a
  rw [within_eq_ok_iff, within_eq_ok_iff, h]

theorem Agrees.map (h : x.Agrees y) (f : α → β) : (x.map f).Agrees (y.map f) := h.fmap f

end Checked

namespace Form

variable {f : Form α}

/-- Whether a value is read alike however its keys are spelled. -/
def Indifferent (labels : List Label) (f : Form α) : Prop :=
  ∀ v : Value, (f.read (v.onWire labels)).Agrees (f.read v)

theorem text_indifferent : text.Indifferent labels := by
  intro v
  cases v <;> exact .refl _

theorem flag_indifferent : flag.Indifferent labels := by
  intro v
  cases v <;> exact .refl _

theorem optional_indifferent (h : f.Indifferent labels) : (optional f).Indifferent labels := by
  intro v
  have hsome := (h v).map some
  cases v with
  | scalar s => exact .refl _
  | _ => exact hsome

theorem readItems_onWire (h : f.Indifferent labels) (index : Nat) (items : List Value) :
    (readItems f.read index (items.map (Value.onWire labels))).Agrees
      (readItems f.read index items) := by
  intro as
  rw [readItems_iff, readItems_iff, List.forall₂_map_left_iff]
  exact ⟨fun hall => hall.imp fun v a => (h v a).1, fun hall => hall.imp fun v a => (h v a).2⟩

theorem sequence_indifferent (complaint : Complaint) (h : f.Indifferent labels) :
    (sequence complaint f).Indifferent labels := by
  intro v
  simp only [sequence, Value.opened_onWire]
  cases v.opened with
  | list items =>
    rw [Value.onWire_list]
    exact readItems_onWire h 0 items
  | pair key held => exact readItems_onWire h 0 [key, held]
  | map entries =>
    rw [Value.onWire_map]
    exact .refl _
  | _ => exact .refl _

theorem list_indifferent (h : f.Indifferent labels) : (list f).Indifferent labels :=
  sequence_indifferent _ h

theorem record_indifferent {title : Text} {read : Entries → Checked α}
    {write : Spelling → α → Entries}
    (h : ∀ entries : Entries, (read (entries.onWire labels)).Agrees (read entries)) :
    (record title read write).Indifferent labels := by
  intro v a
  rw [record_read_iff, record_read_iff, Value.entries?_onWire]
  cases v.entries? with
  | none => exact iff_of_false nofun nofun
  | some entries => simp only [Option.map_some, Option.some.injEq, exists_eq_left', h entries a]

end Form

theorem Member.read_onWire (hd : Distinct labels) {m : Member α} (hm : m.label ∈ labels)
    (h : m.form.Indifferent labels) (entries : Entries) :
    (m.read (entries.onWire labels)).Agrees (m.read entries) := by
  have hvalue := Entries.value?_onWire hd hm entries
  rw [Label.value?, Label.value?] at hvalue
  rw [read, read]
  cases hfind : m.label.find? entries with
  | none =>
    rw [hfind] at hvalue
    rw [Option.map_eq_none_iff.1 hvalue]
    exact .refl _
  | some found =>
    obtain ⟨key, v⟩ := found
    rw [hfind] at hvalue
    obtain ⟨⟨other, w⟩, hother, rfl⟩ := Option.map_eq_some_iff.1 hvalue
    rw [hother]
    exact (h v).within _ _

end ApiPrep.Record
