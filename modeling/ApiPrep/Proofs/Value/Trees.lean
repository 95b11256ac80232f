import ApiPrep.Proofs.Value.Assigned

namespace ApiPrep

mutual

/-- Whether no collection in a value has a mark: none holds itself, and no mapping stands in several
places. -/
def Value.isTree : Value → Bool
  | .scalar _ | .set _ => true
  | .list items => areTrees items
  | .map entries => haveTrees entries
  | .pair key held => key.isTree && held.isTree
  | .marked .. | .again _ => false

def areTrees : List Value → Bool
  | [] => true
  | item :: rest => item.isTree && areTrees rest

def haveTrees : List (Scalar × Value) → Bool
  | [] => true
  | (_, held) :: rest => held.isTree && haveTrees rest

end

def Entries.change (key : Text) (f : Value → Value) : Entries → Entries
  | [] => []
  | (.text k, v) :: rest =>
    if k = key then (.text k, f v) :: rest else (.text k, v) :: Entries.change key f rest
  | entry :: rest => entry :: Entries.change key f rest

def Value.changeItems (f : Value → Value) : Value → Value
  | .list items => .list (items.map f)
  | .pair first second => .pair (f first) (f second)
  | other => other

variable {entries : Entries} {items : List Value} {v : Value} {key : Text} {f : Value → Value}

/-! ### Parts of trees -/

namespace Value

theorem isTree_list : (Value.list items).isTree = true ↔ ∀ item ∈ items, item.isTree = true := by
  change areTrees items = true ↔ _
  induction items with
  | nil => exact iff_of_true rfl nofun
  | cons item rest ih => rw [areTrees, Bool.and_eq_true, ih, List.forall_mem_cons]

theorem isTree_map :
    (Value.map entries).isTree = true ↔ ∀ entry ∈ entries, entry.2.isTree = true := by
  change haveTrees entries = true ↔ _
  induction entries with
  | nil => exact iff_of_true rfl nofun
  | cons entry rest ih => rw [haveTrees, Bool.and_eq_true, ih, List.forall_mem_cons]

theorem isTree_get? (h : (Value.map entries).isTree = true) (hget : entries.get? key = some v) :
    v.isTree = true :=
  isTree_map.1 h _ (Entries.mem_of_get? hget)

theorem isTree_sequence? (h : v.isTree = true) (hitems : v.sequence? = some items) :
    ∀ item ∈ items, item.isTree = true := by
  cases v with
  | list others =>
    cases hitems
    exact isTree_list.1 h
  | pair first second =>
    cases hitems
    rw [isTree, Bool.and_eq_true] at h
    exact List.forall_mem_cons.2 ⟨h.1, List.forall_mem_singleton.2 h.2⟩
  | _ => cases hitems

theorem opened_of_isTree (h : v.isTree = true) : v.opened = v := by
  cases v with
  | marked => cases h
  | _ => rfl

theorem eq_map_of_isTree (h : v.isTree = true) (hentries : v.entries? = some entries) :
    v = .map entries := by
  rw [entries?, opened_of_isTree h] at hentries
  split at hentries
  · rw [Option.some.inj hentries]
  · cases hentries

theorem changeItems_of_none (h : v.sequence? = none) : v.changeItems f = v := by
  cases v with
  | list | pair => cases h
  | _ => rfl

end Value

/-! ### Changes under a key -/

namespace Entries

theorem change_eq_put (h : entries.get? key = some v) :
    entries.change key f = entries.put (.text key) (f v) := by
  induction entries with
  | nil => cases h
  | cons entry rest ih =>
    obtain ⟨s, w⟩ := entry
    by_cases hs : ∃ t, s = .text t
    · obtain ⟨t, rfl⟩ := hs
      rw [get?_cons_text] at h
      rw [put]
      by_cases ht : t = key
      · rw [if_pos ht] at h
        rw [change, if_pos ht, if_pos (Scalar.same_text_iff.2 (congrArg _ ht)), Option.some.inj h]
      · have hsame : ¬(Scalar.text t).same (.text key) = true := fun h =>
          ht (Scalar.text.inj (Scalar.same_text_iff.1 h))
        rw [if_neg ht] at h
        rw [change, if_neg ht, if_neg hsame, ih h]
    · have hsame : ¬s.same (.text key) = true := fun h => hs ⟨key, Scalar.same_text_iff.1 h⟩
      rw [get?_cons_other (not_exists.1 hs)] at h
      rw [put, if_neg hsame, ← ih h]
      cases s with
      | text t => exact absurd ⟨t, rfl⟩ hs
      | _ => rfl

theorem change_eq_self (h : ∀ v, entries.get? key = some v → f v = v) :
    entries.change key f = entries := by
  induction entries with
  | nil => rfl
  | cons entry rest ih =>
    obtain ⟨s, w⟩ := entry
    cases s with
    | text t =>
      rw [change]
      simp only [get?_cons_text] at h
      split
      · next ht => rw [h w (if_pos ht)]
      · next ht => rw [ih fun v hv => h v (by rw [if_neg ht, hv])]
    | _ => exact congrArg _ (ih h)

end Entries

end ApiPrep
