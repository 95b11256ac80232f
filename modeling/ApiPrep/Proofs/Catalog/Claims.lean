import ApiPrep.Catalog.Match

namespace ApiPrep

theorem Signature.fits_name {s : Signature} {op : Operation} (h : s.fits op = true) :
    op.operationId = s.name := by
  simp only [fits, Bool.and_eq_true, beq_iff_eq] at h
  exact h.1.1.1.1.symm

/-- An operation has one id, so that all signatures that it fits have one name. -/
theorem Signature.fits_unique {s t : Signature} {op : Operation} (hs : s.fits op = true)
    (ht : t.fits op = true) : s.name = t.name :=
  (fits_name hs).symm.trans (fits_name ht)

namespace Catalog

variable {s : Signature} {op : Operation} {operations : List Operation} {claimed : List Nat}

/-- No operation that fits a signature is claimed, where the first one has the index `here`. -/
def Free (s : Signature) (claimed : List Nat) (here : Nat) (operations : List Operation) : Prop :=
  ∀ i op, operations[i]? = some op → s.fits op = true → here + i ∉ claimed

def notesOn (s : Signature) (kept : Operation) (operations : List Operation) : List Note :=
  (operations.filter s.fits).map fun op => ⟨.debug, furtherFit s kept op⟩

def furtherNotes (operations : List Operation) (s : Signature) : List Note :=
  match operations.filter s.fits with
  | [] => []
  | kept :: further => further.map fun op => ⟨.debug, furtherFit s kept op⟩

variable {here : Nat} {rest : List Operation}

theorem Free.head (h : Free s claimed here (op :: rest)) (hf : s.fits op = true) :
    claimed.contains here = false := by
  rw [List.contains_eq_mem, decide_eq_false_iff_not]
  exact h 0 op rfl hf

theorem Free.tail (h : Free s claimed here (op :: rest)) : Free s claimed (here + 1) rest := by
  intro i op' hi hf
  have hni := h (i + 1) op' hi hf
  rwa [← Nat.add_assoc, Nat.add_right_comm] at hni

theorem Free.claim (h : Free s claimed (here + 1) rest) :
    Free s (here :: claimed) (here + 1) rest := by
  intro i op hi hf hm
  rcases List.mem_cons.1 hm with he | hm
  · omega
  · exact h i op hi hf hm

/-- Nothing that is met later changes what a signature has claimed, but all that fits is noted. -/
theorem searchFor_some (h : Free s claimed here operations) (index : Nat) (kept : Operation) :
    searchFor s claimed (some (index, kept)) here operations =
      ⟨some index, notesOn s kept operations⟩ := by
  induction operations generalizing here with
  | nil => rfl
  | cons op rest ih =>
    rw [searchFor, ih h.tail, notesOn, notesOn, List.filter_cons]
    by_cases hf : s.fits op = true
    · rw [h.head hf, hf]
      rfl
    · rw [Bool.eq_false_iff.2 hf, Bool.not_false, Bool.or_true]
      rfl

theorem searchFor_none (h : Free s claimed here operations) :
    searchFor s claimed none here operations =
      ⟨(operations.findIdx? s.fits).map (· + here), furtherNotes operations s⟩ := by
  induction operations generalizing here with
  | nil => rfl
  | cons op rest ih =>
    rw [searchFor, List.findIdx?_cons, furtherNotes, List.filter_cons]
    by_cases hf : s.fits op = true
    · rw [h.head hf, hf, searchFor_some h.tail.claim]
      simp only [Bool.not_true, Bool.or_false, Bool.false_eq_true, ↓reduceIte, Option.map_some,
        Nat.zero_add, notesOn]
    · rw [Bool.eq_false_iff.2 hf, Bool.not_false, Bool.or_true, ih h.tail]
      simp only [↓reduceIte, Bool.false_eq_true, Option.map_map, Function.comp_def, Nat.add_assoc,
        Nat.add_comm 1 here, furtherNotes]

def firstFit? (operations : List Operation) (s : Signature) : Option Claim :=
  (operations.findIdx? s.fits).map (Claim.mk s.name)

theorem fits_of_findIdx? {i : Nat} (hi : operations.findIdx? s.fits = some i)
    (hop : operations[i]? = some op) : s.fits op = true := by
  obtain ⟨hlt, hfit, _⟩ := List.findIdx?_eq_some_iff_getElem.1 hi
  rw [List.getElem?_eq_getElem hlt] at hop
  exact Option.some.inj hop ▸ hfit

/-- Claims do not get in each other's way as long as none of the claimed operations fits a
signature that is still to come. -/
theorem claimsOf_eq {signatures : List Signature} (hn : (signatures.map Signature.name).Nodup)
    (hc : ∀ s ∈ signatures, Free s claimed 0 operations) :
    claimsOf operations claimed signatures =
      ⟨signatures.filterMap (firstFit? operations),
        signatures.flatMap (furtherNotes operations)⟩ := by
  -- A claim that is added is in nobody's way: two signatures that an operation fits have one name.
  induction signatures generalizing claimed with
  | nil => rfl
  | cons s rest ih =>
    obtain ⟨hs, hrest⟩ := List.forall_mem_cons.1 hc
    obtain ⟨hfresh, hn⟩ := List.nodup_cons.1 hn
    rw [claimsOf, List.filterMap_cons, List.flatMap_cons, firstFit?, searchFor_none hs,
      Traced.bind_eq]
    cases hi : operations.findIdx? s.fits with
    | none =>
      simp only [Option.map_none, ih hn hrest]
    | some index =>
      have hnext : ∀ t ∈ rest, Free t (index :: claimed) 0 operations := by
        intro t ht i op hop hf hm
        rcases List.mem_cons.1 hm with he | hm
        · rw [Nat.zero_add] at he
          have hfit := fits_of_findIdx? hi (he ▸ hop)
          exact hfresh (Signature.fits_unique hf hfit ▸ List.mem_map_of_mem ht)
        · exact hrest t ht i op hop hf hm
      simp only [Option.map_some, Nat.add_zero, ih hn hnext, Traced.bind_eq, Traced.pure_eq,
        List.append_nil]

theorem claims_eq (c : Catalog) (operations : List Operation) :
    c.claims operations =
      ⟨c.signatures.filterMap (firstFit? operations),
        c.signatures.flatMap (furtherNotes operations)⟩ :=
  claimsOf_eq c.nodup fun _ _ _ _ _ _ => List.not_mem_nil

/-- Each signature of a catalog claims the first operation that fits it. -/
theorem claims_value (c : Catalog) (operations : List Operation) :
    (c.claims operations).value = c.signatures.filterMap (firstFit? operations) := by
  rw [claims_eq]

/-- For each signature of a catalog, all further operations that fit it are noted. -/
theorem claims_notes (c : Catalog) (operations : List Operation) :
    (c.claims operations).notes = c.signatures.flatMap (furtherNotes operations) := by
  rw [claims_eq]

end Catalog

end ApiPrep
