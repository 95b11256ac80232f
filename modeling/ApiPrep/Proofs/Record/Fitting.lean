import ApiPrep.Proofs.Json.Exact
import ApiPrep.Proofs.Record.Lossless

namespace ApiPrep.Record

open Json (Fits textEntries)

variable {α : Type} {spelling : Spelling} {depth : Nat}

theorem fits_spelled (fields : List (Label × Value))
    (hp : (fields.map Prod.fst).Pairwise Label.Apart)
    (each : fields.Forall fun field => Fits depth field.2) :
    Fits (depth + 1) (.map (spelled spelling fields)) := by
  let members := fields.map fun field => (field.1.spelled spelling, field.2)
  have hentries : spelled spelling fields = textEntries members := by
    rw [textEntries, List.map_map]
    rfl
  have hkeys : members.map Prod.fst = fields.map fun field => field.1.spelled spelling :=
    List.map_map
  rw [hentries]
  apply Fits.map
  · rw [hkeys]
    exact nodup_spelled spelling hp
  · intro member hmember
    obtain ⟨field, hfield, rfl⟩ := List.mem_map.1 hmember
    exact List.forall_iff_forall_mem.1 each field hfield

namespace Form

variable {f : Form α}

def Fitting (depth : Nat) (f : Form α) : Prop := ∀ spelling a, Fits depth (f.write spelling a)

theorem Fitting.mono (h : f.Fitting depth) {deeper : Nat} (hd : depth ≤ deeper) :
    f.Fitting deeper := fun spelling a => (h spelling a).mono hd

theorem text_fitting : text.Fitting depth := fun _ s => .text s

theorem flag_fitting : flag.Fitting depth := fun _ b => .bool b

theorem optional_fitting (h : f.Fitting depth) : (optional f).Fitting depth := by
  intro spelling a
  cases a with
  | none => exact .null
  | some a => exact h spelling a

theorem sequence_fitting (complaint : Complaint) (h : f.Fitting depth) :
    (sequence complaint f).Fitting (depth + 1) := by
  intro spelling items
  apply Fits.list
  intro v hv
  obtain ⟨a, -, rfl⟩ := List.mem_map.1 hv
  exact h spelling a

theorem record_fitting {ρ : Type} {title : Text} {read : Entries → Checked ρ}
    {write : Spelling → ρ → Entries} (slots : List (Slot ρ))
    (hp : (slots.map fun p => p.member.label).Pairwise Label.Apart)
    (hwrite : ∀ spelling r, write spelling r = spelled spelling (slots.map (Slot.field spelling r)))
    (h : slots.Forall fun p => p.member.form.Fitting depth) :
    (record title read write).Fitting (depth + 1) := by
  intro spelling r
  have hlabels : (slots.map (Slot.field spelling r)).map Prod.fst =
      slots.map fun p => p.member.label := List.map_map
  change Fits (depth + 1) (.map (write spelling r))
  rw [hwrite]
  apply fits_spelled _ (hlabels ▸ hp)
  apply List.forall_iff_forall_mem.2
  intro field hfield
  obtain ⟨p, hmem, rfl⟩ := List.mem_map.1 hfield
  exact List.forall_iff_forall_mem.1 h p hmem spelling (p.get r)

end Form

end ApiPrep.Record
