import ApiPrep.Proofs.Value.Entries
import Mathlib.Data.List.Basic

namespace ApiPrep

variable {entries : Entries} {s : Scalar} {k key : Text} {v held whole : Value} {mark : Nat}
  {a : Assignment} {f g : Value → Value}

/-- What holds of a value once it holds of the parts of this value holds of every value. -/
@[elab_as_elim]
theorem Value.partwise {motive : Value → Prop} (scalar : ∀ s, motive (.scalar s))
    (list : ∀ items, (∀ v ∈ items, motive v) → motive (.list items))
    (map : ∀ entries : Entries, (∀ entry ∈ entries, motive entry.2) → motive (.map entries))
    (set : ∀ members, motive (.set members))
    (pair : ∀ key held, motive key → motive held → motive (.pair key held))
    (marked : ∀ mark v, motive v → motive (.marked mark v)) (again : ∀ mark, motive (.again mark))
    (v : Value) : motive v := by
  apply @Value.rec motive (fun items => ∀ v ∈ items, motive v)
    (fun entries => ∀ entry ∈ entries, motive entry.2) (fun entry => motive entry.2)
  case scalar => exact scalar
  case list => exact list
  case map => exact map
  case set => exact set
  case pair => exact pair
  case marked => exact marked
  case again => exact again
  case nil => exact nofun
  case cons => exact fun _ _ hv hrest => List.forall_mem_cons.2 ⟨hv, hrest⟩
  case nil => exact nofun
  case cons => exact fun _ _ hv hrest => List.forall_mem_cons.2 ⟨hv, hrest⟩
  case mk => exact fun _ _ hv => hv

namespace Entries

def keys (entries : Entries) : List Scalar := entries.map Prod.fst

theorem keys_mapValues (f : Value → Value) (entries : Entries) :
    (mapValues f entries).keys = entries.keys := List.map_map

theorem mapValues_mapValues (f g : Value → Value) (entries : Entries) :
    mapValues f (mapValues g entries) = mapValues (fun v => f (g v)) entries := List.map_map

theorem mapValues_congr (h : ∀ entry ∈ entries, f entry.2 = g entry.2) :
    mapValues f entries = mapValues g entries :=
  List.map_congr_left fun entry hentry => by rw [h entry hentry]

theorem put_mapValues (f : Value → Value) (entries : Entries) (s : Scalar) (v : Value) :
    mapValues f (entries.put s v) = (mapValues f entries).put s (f v) := by
  induction entries with
  | nil => rfl
  | cons entry rest ih =>
    obtain ⟨r, w⟩ := entry
    change mapValues f (put ((r, w) :: rest) s v) = put ((r, f w) :: mapValues f rest) s (f v)
    rw [put, put]
    split
    · rfl
    · rw [← ih]
      rfl

theorem mem_of_get? (h : entries.get? k = some v) : (.text k, v) ∈ entries := by
  induction entries with
  | nil => cases h
  | cons entry rest ih =>
    obtain ⟨s, w⟩ := entry
    by_cases hs : ∃ t, s = .text t
    · obtain ⟨t, rfl⟩ := hs
      rw [get?_cons_text] at h
      split at h
      · next ht =>
        cases ht
        cases h
        exact List.mem_cons_self
      · exact List.mem_cons_of_mem _ (ih h)
    · rw [get?_cons_other (not_exists.1 hs)] at h
      exact List.mem_cons_of_mem _ (ih h)

theorem has_iff : entries.has k = true ↔ .text k ∈ entries.keys := by
  rw [has, keys]
  induction entries with
  | nil => exact iff_of_false nofun nofun
  | cons entry rest ih =>
    obtain ⟨s, w⟩ := entry
    rw [List.map_cons, List.mem_cons]
    by_cases hs : ∃ t, s = .text t
    · obtain ⟨t, rfl⟩ := hs
      rw [get?_cons_text, ← ih, Scalar.text.injEq]
      split
      · next ht => exact iff_of_true rfl (.inl ht.symm)
      · next ht => exact (or_iff_right fun he => ht he.symm).symm
    · have hne : Scalar.text k ≠ s := fun he => hs ⟨k, he.symm⟩
      rw [get?_cons_other (not_exists.1 hs), ih, or_iff_right hne]

theorem mem_put {entry : Scalar × Value} (h : entry ∈ entries.put s v) :
    entry.2 = v ∨ entry ∈ entries := by
  induction entries with
  | nil => exact .inl (congrArg Prod.snd (List.mem_singleton.1 h))
  | cons other rest ih =>
    rw [put] at h
    split at h
    · rcases List.mem_cons.1 h with rfl | h
      · exact .inl rfl
      · exact .inr (List.mem_cons_of_mem _ h)
    · rcases List.mem_cons.1 h with rfl | h
      · exact .inr List.mem_cons_self
      · exact (ih h).imp_right (List.mem_cons_of_mem _)

theorem mem_keys_put : s ∈ (entries.put (.text key) v).keys ↔ s = .text key ∨ s ∈ entries.keys := by
  induction entries with
  | nil => exact List.mem_cons
  | cons entry rest ih =>
    obtain ⟨r, w⟩ := entry
    rw [put]
    split
    · next hr =>
      obtain rfl := Scalar.same_text_iff.1 hr
      change s ∈ .text key :: keys rest ↔ s = .text key ∨ s ∈ .text key :: keys rest
      rw [List.mem_cons, ← or_assoc, or_self]
    · change s ∈ r :: keys (put rest (.text key) v) ↔ s = .text key ∨ s ∈ r :: keys rest
      rw [List.mem_cons, List.mem_cons, ih, or_left_comm]

end Entries

/-! ### Ties and assignments -/

theorem tieItems_eq (mark : Nat) (whole : Value) (items : List Value) :
    tieItems mark whole items = items.map (Value.tie mark whole) := by
  induction items with
  | nil => rfl
  | cons item rest ih => rw [tieItems, ih, List.map_cons]

theorem assignItems_eq (a : Assignment) (items : List Value) :
    assignItems a items = items.map (Value.assign a) := by
  induction items with
  | nil => rfl
  | cons item rest ih => rw [assignItems, ih, List.map_cons]

namespace Value

theorem tie_map (mark : Nat) (whole : Value) (entries : Entries) :
    tie mark whole (.map entries) = .map (entries.mapValues (tie mark whole)) := by
  rw [tie, Entries.tieEntries_eq]

theorem tie_list (mark : Nat) (whole : Value) (items : List Value) :
    tie mark whole (.list items) = .list (items.map (tie mark whole)) := by
  rw [tie, tieItems_eq]

theorem assign_map (a : Assignment) (entries : Entries) :
    assign a (.map entries) = .map (entries.mapValues (assign a)) := by
  rw [assign, Entries.assignEntries_eq]

theorem assign_list (a : Assignment) (items : List Value) :
    assign a (.list items) = .list (items.map (assign a)) := by
  rw [assign, assignItems_eq]

theorem tie_withEntry (mark : Nat) (collection v : Value) (key s : Scalar) :
    tie mark (.marked mark collection) (v.withEntry key (.scalar s)) =
      (tie mark (.marked mark collection) v).withEntry key (.scalar s) := by
  cases v with
  | map entries =>
    change tie mark _ (.map (Entries.put entries key (.scalar s))) = _
    rw [tie_map, tie_map, Entries.put_mapValues]
    rfl
  | again other =>
    change tie mark _ (.again other) = (tie mark _ (.again other)).withEntry key _
    rw [tie]
    split <;> rfl
  | _ => rfl

theorem assign_tie (mark : Nat) (collection v : Value) (hheld : a.held = .scalar s) :
    (tie mark (.marked mark collection) v).assign a =
      tie mark ((Value.marked mark collection).assign a) (v.assign a) := by
  induction v using partwise with
  | scalar r => rfl
  | list items ih =>
    rw [tie_list, assign_list, assign_list, tie_list, List.map_map, List.map_map]
    exact congrArg Value.list (List.map_congr_left ih)
  | map entries ih =>
    rw [tie_map, assign_map, assign_map, tie_map, Entries.mapValues_mapValues,
      Entries.mapValues_mapValues]
    exact congrArg Value.map (Entries.mapValues_congr ih)
  | set members => rfl
  | pair key held ihk ihh =>
    simp only [tie, assign, ihk, ihh]
  | marked other v ih =>
    simp only [tie, assign]
    by_cases hother : other = mark
    · simp only [if_pos hother]
    · simp only [if_neg hother, ih]
      rw [assign, hheld]
      split
      · rw [tie_withEntry]
      · rfl
  | again other =>
    simp only [tie, assign]
    split
    · rfl
    · rfl

end Value

end ApiPrep
