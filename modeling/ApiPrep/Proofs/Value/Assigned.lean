import ApiPrep.Proofs.Value.Places

namespace ApiPrep.Value

variable {entries : Entries} {v w collection : Value} {mark : Nat} {key : Text} {s : Scalar}
  {a : Assignment}

def sequence? : Value → Option (List Value)
  | .list items => some items
  | .pair first second => some [first, second]
  | _ => none

theorem places_sequence? {items : List Value} (h : v.sequence? = some items) (hw : w ∈ items) :
    w.places ⊆ v.places := by
  cases v with
  | list others =>
    cases h
    exact places_item hw
  | pair first second =>
    cases h
    intro p hp
    rw [mem_places_pair]
    rcases List.mem_cons.1 hw with rfl | hw
    · exact .inl hp
    · rw [← List.mem_singleton.1 hw]
      exact .inr hp
  | _ => cases h

def keys? (v : Value) : Option (List Scalar) := v.entries?.map Entries.keys

theorem keys?_marked (mark : Nat) (collection : Value) :
    (Value.marked mark collection).keys? = collection.ownKeys? := by
  cases collection with
  | map entries =>
    change some (Entries.keys (tieEntries mark _ entries)) = some (Entries.keys entries)
    rw [Entries.tieEntries_eq, Entries.keys_mapValues]
  | again other =>
    have hnone : (Value.marked mark (.again other)).entries? = none := by
      rw [entries?, opened, tie]
      by_cases hother : other = mark
      · rw [if_pos hother]
      · rw [if_neg hother]
    rw [keys?, hnone]
    rfl
  | _ => rfl

theorem exists_keys?_assign (hkey : a.key = .text key) {keys : List Scalar}
    (h : (v.assign a).keys? = some keys) :
    ∃ before, v.keys? = some before ∧ (keys = before ∨
      (∃ collection, v = .marked a.mark collection) ∧ ∀ s, s ∈ keys ↔ s = a.key ∨ s ∈ before) := by
  cases v with
  | marked mark collection =>
    rw [assign, keys?_marked] at h
    rw [keys?_marked]
    split at h
    · next hmark =>
      rw [hkey] at h
      obtain ⟨before, hbefore, hkeys⟩ := ownKeys?_withEntry h
      rw [ownKeys?_assign] at hbefore
      exact ⟨before, hbefore, .inr ⟨⟨collection, hmark ▸ rfl⟩, hkey ▸ hkeys⟩⟩
    · rw [ownKeys?_assign] at h
      exact ⟨keys, h, .inl rfl⟩
  | map entries =>
    rw [assign_map] at h
    cases h
    exact ⟨_, rfl, .inl (Entries.keys_mapValues _ _)⟩
  | _ => cases h

theorem opened_assign (hheld : a.held = .scalar s) (hmap : v.entries? = none) :
    (v.assign a).opened = v.opened.assign a := by
  cases v with
  | marked mark collection =>
    have hcollection : (Value.marked mark collection).assign a =
        .marked mark (collection.assign a) := by
      rw [assign]
      split
      · cases collection with
        | map entries => cases hmap
        | _ => rfl
      · rfl
    rw [opened, assign_tie mark collection collection hheld, hcollection, opened]
  | map entries => cases hmap
  | _ => rfl

theorem entries?_assign (hkey : a.key = .text key) (hheld : a.held = .scalar s)
    (h : v.entries? = some entries) : ∃ after : Entries, (v.assign a).entries? = some after ∧
      ∀ k ≠ key, after.get? k = (entries.get? k).map (assign a) := by
  cases v with
  | map es =>
    cases h
    rw [assign_map]
    exact ⟨_, rfl, fun k _ => Entries.get?_mapValues _ _ k⟩
  | marked mark collection =>
    obtain ⟨es, rfl, rfl⟩ := entries?_marked h
    have htied (k : Text) : ((es.get? k).map (assign a)).map
        (tie mark ((Value.marked mark (.map es)).assign a)) =
          (Entries.get? (tieEntries mark (.marked mark (.map es)) es) k).map (assign a) := by
      rw [Entries.tieEntries_eq, Entries.get?_mapValues, Option.map_map, Option.map_map]
      refine congrArg (Option.map · (es.get? k)) (funext fun w => ?_)
      exact (assign_tie mark (.map es) w hheld).symm
    have hassign : (Value.marked mark (.map es)).assign a =
        .marked mark (.map (if mark = a.mark then (es.mapValues (assign a)).put a.key a.held
          else es.mapValues (assign a))) := by
      rw [assign, assign_map]
      split <;> rfl
    refine ⟨tieEntries mark ((Value.marked mark (.map es)).assign a) _, by rw [hassign]; rfl, ?_⟩
    intro k hk
    rw [← htied, Entries.tieEntries_eq, Entries.get?_mapValues]
    refine congrArg (Option.map _) ?_
    split
    · rw [hkey, Entries.get?_put, if_neg (Ne.symm hk), Entries.get?_mapValues]
    · rw [Entries.get?_mapValues]
  | _ => cases h

theorem sequence?_assign (a : Assignment) (v : Value) :
    (v.assign a).sequence? = v.sequence?.map (List.map (assign a)) := by
  cases v with
  | list items =>
    rw [assign_list]
    rfl
  | _ => rfl

theorem sequence?_of_entries? (h : v.entries? = some entries) : v.opened.sequence? = none := by
  rw [entries?] at h
  split at h
  · next hmap =>
    rw [hmap]
    rfl
  · cases h

theorem opened_sequence?_assign (hkey : a.key = .text key) (hheld : a.held = .scalar s)
    (v : Value) :
    (v.assign a).opened.sequence? = v.opened.sequence?.map (List.map (assign a)) := by
  cases h : v.entries? with
  | none => rw [opened_assign hheld h, sequence?_assign]
  | some entries =>
    obtain ⟨after, hafter, -⟩ := entries?_assign hkey hheld h
    rw [sequence?_of_entries? h, sequence?_of_entries? hafter]
    rfl

end ApiPrep.Value
