import ApiPrep.Proofs.Value.Parts

namespace ApiPrep

def Value.ownKeys? : Value → Option (List Scalar)
  | .map (entries : Entries) => some entries.keys
  | _ => none

mutual

/-- The places of mappings that have a mark, each with the keys that the mapping has there. -/
def Value.places : Value → List (Nat × List Scalar)
  | .scalar _ => []
  | .list items => placesOfItems items
  | .map entries => placesOfEntries entries
  | .set _ => []
  | .pair key held => key.places ++ held.places
  | .marked mark v => (v.ownKeys?.map (mark, ·)).toList ++ v.places
  | .again _ => []

def placesOfItems : List Value → List (Nat × List Scalar)
  | [] => []
  | item :: rest => item.places ++ placesOfItems rest

def placesOfEntries : List (Scalar × Value) → List (Nat × List Scalar)
  | [] => []
  | (_, v) :: rest => v.places ++ placesOfEntries rest

end

/-- A mapping that stands in several places has the same keys in all of them. -/
def Value.Coherent (v : Value) : Prop := ∀ p ∈ v.places, ∀ q ∈ v.places, p.1 = q.1 → p.2 = q.2

namespace Value

variable {entries : Entries} {items : List Value} {v w held collection : Value} {mark : Nat}
  {key : Text} {s : Scalar} {a : Assignment} {p : Nat × List Scalar}

theorem mem_places_list : p ∈ (Value.list items).places ↔ ∃ v ∈ items, p ∈ v.places := by
  change p ∈ placesOfItems items ↔ _
  induction items with
  | nil => exact iff_of_false List.not_mem_nil nofun
  | cons item rest ih => rw [placesOfItems, List.mem_append, ih, List.exists_mem_cons_iff]

theorem mem_places_map :
    p ∈ (Value.map entries).places ↔ ∃ entry ∈ entries, p ∈ entry.2.places := by
  change p ∈ placesOfEntries entries ↔ _
  induction entries with
  | nil => exact iff_of_false List.not_mem_nil nofun
  | cons entry rest ih => rw [placesOfEntries, List.mem_append, ih, List.exists_mem_cons_iff]

theorem mem_places_marked : p ∈ (Value.marked mark v).places ↔
    (∃ keys, v.ownKeys? = some keys ∧ p = (mark, keys)) ∨ p ∈ v.places := by
  rw [places, List.mem_append, Option.mem_toList, Option.map_eq_some_iff]
  simp only [eq_comm]

theorem mem_places_pair {key : Value} :
    p ∈ (Value.pair key held).places ↔ p ∈ key.places ∨ p ∈ held.places := by
  rw [places, List.mem_append]

theorem places_get? (h : entries.get? key = some v) : v.places ⊆ (Value.map entries).places :=
  fun _ hp => mem_places_map.2 ⟨_, Entries.mem_of_get? h, hp⟩

theorem places_item (h : v ∈ items) : v.places ⊆ (Value.list items).places :=
  fun _ hp => mem_places_list.2 ⟨v, h, hp⟩

/-! ### Places after a tie -/

theorem ownKeys?_tie (mark : Nat) (collection v : Value) :
    (tie mark (.marked mark collection) v).ownKeys? = v.ownKeys? := by
  cases v with
  | map entries =>
    rw [tie_map]
    exact congrArg some (Entries.keys_mapValues _ _)
  | again other =>
    rw [tie]
    split <;> rfl
  | _ => rfl

theorem places_tie (mark : Nat) (collection v : Value) :
    (tie mark (.marked mark collection) v).places ⊆
      (Value.marked mark collection).places ++ v.places := by
  intro p
  rw [List.mem_append]
  induction v using partwise with
  | scalar => exact .inr
  | set => exact .inr
  | list items ih =>
    rw [tie_list, mem_places_list, mem_places_list]
    rintro ⟨_, hitem, hp⟩
    obtain ⟨v, hv, rfl⟩ := List.mem_map.1 hitem
    exact (ih v hv hp).imp_right fun hp => ⟨v, hv, hp⟩
  | map entries ih =>
    rw [tie_map, mem_places_map, mem_places_map]
    rintro ⟨_, hentry, hp⟩
    obtain ⟨entry, hmem, rfl⟩ := List.mem_map.1 hentry
    exact (ih entry hmem hp).imp_right fun hp => ⟨entry, hmem, hp⟩
  | pair key held ihk ihh =>
    rw [tie, mem_places_pair, mem_places_pair]
    rintro (hp | hp)
    · exact (ihk hp).imp_right .inl
    · exact (ihh hp).imp_right .inr
  | marked other v ih =>
    intro hp
    rw [tie] at hp
    split at hp
    · exact .inr hp
    · rw [mem_places_marked, ownKeys?_tie] at hp
      rcases hp with hp | hp
      · exact .inr (mem_places_marked.2 (.inl hp))
      · exact (ih hp).imp_right fun hp => mem_places_marked.2 (.inr hp)
  | again other =>
    rw [tie]
    split
    · exact .inl
    · exact .inr

theorem places_opened (v : Value) : v.opened.places ⊆ v.places := by
  cases v with
  | marked mark collection =>
    intro p hp
    rcases List.mem_append.1 (places_tie mark collection collection hp) with hp | hp
    · exact hp
    · exact mem_places_marked.2 (.inr hp)
  | _ => exact fun _ hp => hp

theorem places_entries? (h : v.entries? = some entries) :
    (Value.map entries).places ⊆ v.places := by
  have hopened := v.places_opened
  rw [entries?] at h
  split at h
  · next hmap =>
    rw [hmap] at hopened
    exact Option.some.inj h ▸ hopened
  · cases h

/-! ### Places after an assignment -/

/-- Whether a place may have become another one by an assignment. -/
def Becomes (a : Assignment) (p q : Nat × List Scalar) : Prop :=
  p.1 = q.1 ∧ (p.2 = q.2 ∨ p.1 = a.mark ∧ ∀ s, s ∈ q.2 ↔ s = a.key ∨ s ∈ p.2)

theorem places_withEntry (v : Value) (key s : Scalar) :
    (v.withEntry key (.scalar s)).places ⊆ v.places := by
  cases v with
  | map entries =>
    intro p hp
    obtain ⟨entry, hentry, hp⟩ := mem_places_map.1 hp
    rcases Entries.mem_put hentry with hheld | hentry
    · rw [hheld] at hp
      exact absurd hp List.not_mem_nil
    · exact mem_places_map.2 ⟨entry, hentry, hp⟩
  | _ => exact fun _ hp => hp

theorem ownKeys?_assign (a : Assignment) (v : Value) : (v.assign a).ownKeys? = v.ownKeys? := by
  cases v with
  | map entries =>
    rw [assign_map]
    exact congrArg some (Entries.keys_mapValues _ _)
  | _ => rfl

theorem ownKeys?_withEntry {keys : List Scalar}
    (h : (v.withEntry (.text key) held).ownKeys? = some keys) :
    ∃ before, v.ownKeys? = some before ∧ ∀ s, s ∈ keys ↔ s = .text key ∨ s ∈ before := by
  cases v with
  | map entries =>
    cases h
    exact ⟨_, rfl, fun _ => Entries.mem_keys_put⟩
  | _ => cases h

theorem exists_becomes (hkey : a.key = .text key) (hheld : a.held = .scalar s)
    (hp : p ∈ (v.assign a).places) : ∃ q ∈ v.places, Becomes a q p := by
  induction v using partwise with
  | scalar => exact absurd hp List.not_mem_nil
  | set => exact absurd hp List.not_mem_nil
  | again => exact absurd hp List.not_mem_nil
  | list items ih =>
    rw [assign_list] at hp
    obtain ⟨_, hitem, hp⟩ := mem_places_list.1 hp
    obtain ⟨v, hv, rfl⟩ := List.mem_map.1 hitem
    obtain ⟨q, hq, hbecomes⟩ := ih v hv hp
    exact ⟨q, places_item hv hq, hbecomes⟩
  | map entries ih =>
    rw [assign_map] at hp
    obtain ⟨_, hentry, hp⟩ := mem_places_map.1 hp
    obtain ⟨entry, hmem, rfl⟩ := List.mem_map.1 hentry
    obtain ⟨q, hq, hbecomes⟩ := ih entry hmem hp
    exact ⟨q, mem_places_map.2 ⟨entry, hmem, hq⟩, hbecomes⟩
  | pair key held ihk ihh =>
    rcases mem_places_pair.1 hp with hp | hp
    · obtain ⟨q, hq, hbecomes⟩ := ihk hp
      exact ⟨q, mem_places_pair.2 (.inl hq), hbecomes⟩
    · obtain ⟨q, hq, hbecomes⟩ := ihh hp
      exact ⟨q, mem_places_pair.2 (.inr hq), hbecomes⟩
  | marked mark v ih =>
    have hwithin (hp : p ∈ (v.assign a).places) :
        ∃ q ∈ (Value.marked mark v).places, Becomes a q p := by
      obtain ⟨q, hq, hbecomes⟩ := ih hp
      exact ⟨q, mem_places_marked.2 (.inr hq), hbecomes⟩
    rw [assign] at hp
    split at hp
    · next hmark =>
      -- Only at the mapping itself a key may have come in.
      rw [hkey, hheld] at hp
      rcases mem_places_marked.1 hp with ⟨keys, hkeys, rfl⟩ | hp
      · obtain ⟨before, hbefore, hput⟩ := ownKeys?_withEntry hkeys
        rw [ownKeys?_assign] at hbefore
        exact ⟨_, mem_places_marked.2 (.inl ⟨before, hbefore, rfl⟩), rfl,
          .inr ⟨hmark, hkey ▸ hput⟩⟩
      · exact hwithin (places_withEntry _ _ _ hp)
    · rcases mem_places_marked.1 hp with ⟨keys, hkeys, rfl⟩ | hp
      · rw [ownKeys?_assign] at hkeys
        exact ⟨_, mem_places_marked.2 (.inl ⟨keys, hkeys, rfl⟩), rfl, .inl rfl⟩
      · exact hwithin hp

end Value

end ApiPrep
