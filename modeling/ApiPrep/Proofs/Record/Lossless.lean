import ApiPrep.Record.Form
import Mathlib.Data.List.Nodup
import Mathlib.Data.List.Pairwise

namespace ApiPrep.Record

variable {α : Type}

namespace Form

variable {f : Form α}

/-- What the form writes, it reads as the value that was written. -/
def Lossless (f : Form α) : Prop := ∀ spelling a, f.read (f.write spelling a) = .ok a

/-- The form never writes null, which stands for the absence of a value. -/
def NeverNull (f : Form α) : Prop := ∀ spelling a, f.write spelling a ≠ .null

theorem text_lossless : text.Lossless := fun _ _ => rfl

theorem text_neverNull : text.NeverNull := fun _ _ h => by cases h

theorem flag_lossless : flag.Lossless := fun _ _ => rfl

theorem flag_neverNull : flag.NeverNull := fun _ _ h => by cases h

theorem optional_lossless (hf : f.Lossless) (hn : f.NeverNull) : (optional f).Lossless := by
  intro spelling a
  cases a with
  | none => rfl
  | some a =>
    simp only [optional]
    split
    · next hnull => exact absurd hnull (hn spelling a)
    · rw [hf]
      rfl

theorem readItems_written (hf : f.Lossless) (spelling : Spelling) (index : Nat) (items : List α) :
    readItems f.read index (items.map (f.write spelling)) = .ok items := by
  induction items generalizing index with
  | nil => rfl
  | cons item rest ih =>
    rw [List.map_cons, readItems, hf, ih]
    rfl

theorem sequence_lossless (complaint : Complaint) (hf : f.Lossless) :
    (sequence complaint f).Lossless := fun spelling items => readItems_written hf spelling 0 items

theorem list_lossless (hf : f.Lossless) : (list f).Lossless := sequence_lossless _ hf

theorem tuple_lossless (hf : f.Lossless) : (tuple f).Lossless := sequence_lossless _ hf

end Form

structure Label.Apart (l m : Label) : Prop where
  wire : l.wire ≠ m.wire
  plain : l.plain ≠ m.plain
  wire_plain : l.wire ≠ m.plain
  plain_wire : l.plain ≠ m.wire

instance (l m : Label) : Decidable (l.Apart m) :=
  decidable_of_iff ((l.wire ≠ m.wire ∧ l.plain ≠ m.plain) ∧ l.wire ≠ m.plain ∧ l.plain ≠ m.wire)
    ⟨fun ⟨⟨hw, hp⟩, hwp, hpw⟩ => ⟨hw, hp, hwp, hpw⟩,
      fun ⟨hw, hp, hwp, hpw⟩ => ⟨⟨hw, hp⟩, hwp, hpw⟩⟩

instance : Std.Symm Label.Apart :=
  ⟨fun _ _ h => ⟨h.wire.symm, h.plain.symm, h.plain_wire.symm, h.wire_plain.symm⟩⟩

def spelled (spelling : Spelling) (fields : List (Label × Value)) : Entries :=
  fields.map fun field => (.text (field.1.spelled spelling), field.2)

variable {spelling : Spelling} {fields : List (Label × Value)} {l : Label} {v : Value}

theorem get?_spelled_of_mem (hn : (fields.map fun field => field.1.spelled spelling).Nodup)
    (hm : (l, v) ∈ fields) : (spelled spelling fields).get? (l.spelled spelling) = some v := by
  induction fields with
  | nil => cases hm
  | cons field rest ih =>
    obtain ⟨hfresh, hn⟩ := List.nodup_cons.1 hn
    simp only [spelled, List.map_cons, Entries.get?]
    rcases List.mem_cons.1 hm with rfl | hm
    · rw [if_pos rfl]
    · have hne : field.1.spelled spelling ≠ l.spelled spelling := fun he =>
        hfresh (List.mem_map.2 ⟨(l, v), hm, he.symm⟩)
      rw [if_neg hne]
      exact ih hn hm

theorem get?_spelled_eq_none {key : Text} (h : ∀ field ∈ fields, field.1.spelled spelling ≠ key) :
    (spelled spelling fields).get? key = none := by
  induction fields with
  | nil => rfl
  | cons field rest ih =>
    obtain ⟨hfield, hrest⟩ := List.forall_mem_cons.1 h
    simp only [spelled, List.map_cons, Entries.get?, if_neg hfield]
    exact ih hrest

theorem nodup_spelled (spelling : Spelling) (hp : (fields.map Prod.fst).Pairwise Label.Apart) :
    (fields.map fun field => field.1.spelled spelling).Nodup := by
  rw [List.pairwise_map] at hp
  refine List.pairwise_map.2 (hp.imp fun h => ?_)
  cases spelling with
  | wire => exact h.wire
  | plain => exact h.plain

theorem find?_spelled (spelling : Spelling) (hp : (fields.map Prod.fst).Pairwise Label.Apart)
    (hm : (l, v) ∈ fields) : ∃ found, l.find? (spelled spelling fields) = some (found, v) := by
  have hget := get?_spelled_of_mem (nodup_spelled spelling hp) hm
  cases spelling with
  | wire =>
    have hwire : (spelled .wire fields).get? l.wire = some v := hget
    exact ⟨l.wire, by simp only [Label.find?, hwire]⟩
  | plain =>
    have hplain : (spelled .plain fields).get? l.plain = some v := hget
    by_cases hl : l.wire = l.plain
    · exact ⟨l.wire, by simp only [Label.find?, hl, hplain]⟩
    · -- The wire spelling is looked for first, so it must not be the plain one of another key.
      have hnone : (spelled .plain fields).get? l.wire = none := by
        refine get?_spelled_eq_none fun field hfield he => ?_
        by_cases hf : field.1 = l
        · exact hl (hf ▸ he.symm)
        · have hfl := hp.forall (List.mem_map_of_mem hfield) (List.mem_map_of_mem hm) hf
          exact hfl.plain_wire he
      exact ⟨l.plain, by simp only [Label.find?, hnone, hplain, Option.map_some]⟩

/-- A member of a record with the field that it stands for. -/
structure Slot (ρ : Type) where
  {α : Type}
  member : Member α
  get : ρ → α
  lossless : member.form.Lossless

namespace Slot

variable {ρ : Type} {r : ρ} {slots : List (Slot ρ)}

def field (spelling : Spelling) (r : ρ) (p : Slot ρ) : Label × Value :=
  (p.member.label, p.member.form.write spelling (p.get r))

def Reads (entries : Entries) (r : ρ) (p : Slot ρ) : Prop := p.member.read entries = .ok (p.get r)

theorem reads_spelled (hp : (fields.map Prod.fst).Pairwise Label.Apart) {p : Slot ρ}
    (hm : p.field spelling r ∈ fields) : p.Reads (spelled spelling fields) r := by
  obtain ⟨found, hfind⟩ := find?_spelled spelling hp hm
  rw [Reads, Member.read, hfind]
  simp only [p.lossless spelling (p.get r)]
  rfl

theorem forall_reads_spelled (hp : (fields.map Prod.fst).Pairwise Label.Apart)
    (hsub : slots.map (field spelling r) ⊆ fields) :
    slots.Forall (Reads (spelled spelling fields) r) := by
  apply List.forall_iff_forall_mem.2
  intro p hmem
  exact reads_spelled hp (hsub (List.mem_map_of_mem hmem))

end Slot

/-- A record is lossless if it writes its slots, under keys that are apart, and is read from any
entries in which all of them are found. -/
theorem Form.record_lossless {ρ : Type} {title : Text} {read : Entries → Checked ρ}
    {write : Spelling → ρ → Entries} (slots : List (Slot ρ))
    (hp : (slots.map fun p => p.member.label).Pairwise Label.Apart)
    (hwrite : ∀ spelling r, write spelling r = spelled spelling (slots.map (Slot.field spelling r)))
    (hread : ∀ entries r, slots.Forall (Slot.Reads entries r) → read entries = .ok r) :
    (Form.record title read write).Lossless := by
  intro spelling r
  have hlabels : (slots.map (Slot.field spelling r)).map Prod.fst =
      slots.map fun p => p.member.label := List.map_map
  have hslots := Slot.forall_reads_spelled (hlabels ▸ hp) (List.Subset.refl _)
  change read (write spelling r) = .ok r
  rw [hwrite]
  exact hread _ _ hslots

end ApiPrep.Record
