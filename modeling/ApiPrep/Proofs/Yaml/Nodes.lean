import ApiPrep.Proofs.Yaml.Tokens
import ApiPrep.Yaml.Reader

namespace ApiPrep.Yaml

open Outcome

namespace Node

variable {α : Type} {handles : Handles} {fuel depth : Nat} {place : Place}
  {anchor : Option (List Rune)} {given : Given} {marked first : Bool} {t : Token}
  {ends tokens rest : List Token} {s : Source} {read : Source → Except Fault (Nat × Source)}

/-! ### Sources -/

def Source.Sound (s : Source) : Prop := ∀ t ∈ s.tokens, t.Sound

def Rest (r : α × Source) : Prop := r.2.Sound

theorem sound_tail (h : ∀ u ∈ t :: rest, u.Sound) : ∀ u ∈ rest, u.Sound :=
  (List.forall_mem_cons.1 h).2

theorem Source.Sound.tail (h : s.Sound) (he : s.tokens = t :: rest) : ∀ u ∈ rest, u.Sound :=
  sound_tail fun u hu => h u (he ▸ hu)

theorem unexpected_reads {post : α → Prop} (h : ∀ u ∈ tokens, u.Sound) :
    Reads post (unexpected tokens) := by
  unfold unexpected
  split
  · exact h _ List.mem_cons_self
  · exact trivial

theorem seen_reads (h : ∀ u ∈ tokens, u.Sound) :
    Reads (fun rest => ∀ u ∈ rest, u.Sound) (seen tokens) := by
  unfold seen
  split
  · exact h _ List.mem_cons_self
  · exact h

theorem properties_reads (h : ∀ u ∈ tokens, u.Sound) :
    Reads (fun r => ∀ u ∈ r.2.2, u.Sound) (properties tokens) := by
  unfold properties
  split
  · exact sound_tail (sound_tail h)
  · exact (seen_reads (sound_tail h)).bind fun rest h => h
  · exact sound_tail (sound_tail h)
  · exact (seen_reads (sound_tail h)).bind fun rest h => h
  · exact h

theorem givenTag_reads (name : TagName) : Reads Anything (givenTag handles name) := by
  unfold givenTag
  split
  · exact trivial
  split <;> exact trivial

theorem givenBy_reads (tag : Option TagName) : Reads Anything (givenBy handles tag) := by
  cases tag with
  | none => exact trivial
  | some name => exact givenTag_reads name

/-! ### Small readers -/

theorem absent_reads (h : s.Sound) : Reads Rest (absent anchor given marked s) := by
  unfold absent
  split
  · split
    · exact h
    · exact h
  · exact unexpected_reads h

theorem orNothing_reads (h : s.Sound) (hread : ∀ s : Source, s.Sound → Reads Rest (read s)) :
    Reads Rest (orNothing ends read s) := .ite h (hread s h)

theorem valueOrNothing_reads (h : s.Sound) (hread : ∀ s : Source, s.Sound → Reads Rest (read s)) :
    Reads Rest (valueOrNothing ends read s) := by
  unfold valueOrNothing
  split
  · next rest hrest => exact orNothing_reads (h.tail hrest) hread
  · exact h

theorem afterComma_reads (h : ∀ u ∈ tokens, u.Sound) :
    Reads (fun rest => ∀ u ∈ rest, u.Sound) (afterComma first tokens) := by
  unfold afterComma
  split
  · exact h
  split
  · exact sound_tail h
  · exact unexpected_reads h

theorem singlePair_reads (h : s.Sound) (hread : ∀ s : Source, s.Sound → Reads Rest (read s)) :
    Reads Rest (singlePair read s) := by
  refine (orNothing_reads (s := s.leave.2) h hread).bind fun key h => ?_
  exact (valueOrNothing_reads h hread).bind fun value h => h

/-! ### Nodes -/

/-- What is read with some fuel leaves sound tokens, or there is a fault of the text. -/
structure ReadsAll (handles : Handles) (fuel : Nat) : Prop where
  node (depth : Nat) (place : Place) (s : Source) (h : s.Sound) :
    Reads Rest (ofTokens handles fuel depth place s)
  content (depth : Nat) (place : Place) (anchor : Option (List Rune)) (given : Given)
    (marked : Bool) (s : Source) (h : s.Sound) :
    Reads Rest (content handles fuel depth place anchor given marked s)
  blockItems (depth : Nat) (s : Source) (h : s.Sound) :
    Reads Rest (blockItems handles fuel depth s)
  listItems (depth : Nat) (s : Source) (h : s.Sound) : Reads Rest (listItems handles fuel depth s)
  blockPairs (depth : Nat) (s : Source) (h : s.Sound) :
    Reads Rest (blockPairs handles fuel depth s)
  flowItems (depth : Nat) (first : Bool) (s : Source) (h : s.Sound) :
    Reads Rest (flowItems handles fuel depth first s)
  flowPairs (depth : Nat) (first : Bool) (s : Source) (h : s.Sound) :
    Reads Rest (flowPairs handles fuel depth first s)

namespace ReadsAll

theorem node_succ (ih : ReadsAll handles fuel) (h : s.Sound) :
    Reads Rest (ofTokens handles (fuel + 1) depth place s) := by
  rw [ofTokens]
  split
  · next a rest hrest =>
    split
    · exact h.tail hrest
    · exact trivial
  · refine (properties_reads h).bind fun r hr => ?_
    refine (givenBy_reads _).bind fun given _ => (seen_reads hr).bind fun rest hrest => ?_
    exact .ite trivial (ih.content _ _ _ _ _ _ hrest)

theorem content_succ (ih : ReadsAll handles fuel) (h : s.Sound) :
    Reads Rest (Node.content handles (fuel + 1) depth place anchor given marked s) := by
  unfold Node.content
  split
  · next text plain rest hrest => exact h.tail hrest
  · next rest depth hrest =>
    split
    · exact (ih.listItems depth (s.addAt anchor empty).2 h).bind fun r hr => hr
    · exact absent_reads h
  · next rest depth hrest =>
    exact (ih.flowItems depth true (Source.addAt { s with tokens := rest } anchor empty).2
      (h.tail hrest)).bind fun r hr => hr
  · next rest depth hrest =>
    exact (ih.flowPairs depth true (Source.addAt { s with tokens := rest } anchor empty).2
      (h.tail hrest)).bind fun r hr => hr
  · next rest depth hrest =>
    split
    · exact absent_reads h
    · exact (ih.blockItems depth (Source.addAt { s with tokens := rest } anchor empty).2
        (h.tail hrest)).bind fun r hr => hr
  · next rest depth hrest =>
    split
    · exact absent_reads h
    · exact (ih.blockPairs depth (Source.addAt { s with tokens := rest } anchor empty).2
        (h.tail hrest)).bind fun r hr => hr
  -- No further collection may be opened.
  iterate 5 exact TextBreak.tooDeep
  · exact absent_reads h

theorem blockItems_succ (ih : ReadsAll handles fuel) (h : s.Sound) :
    Reads Rest (Node.blockItems handles (fuel + 1) depth s) := by
  rw [Node.blockItems]
  split
  · next rest hrest =>
    refine (orNothing_reads (h.tail hrest) (ih.node depth _)).bind fun item h => ?_
    exact (ih.blockItems depth _ h).bind fun items h => h
  · next rest hrest => exact h.tail hrest
  · exact unexpected_reads h

theorem listItems_succ (ih : ReadsAll handles fuel) (h : s.Sound) :
    Reads Rest (Node.listItems handles (fuel + 1) depth s) := by
  rw [Node.listItems]
  split
  · next rest hrest =>
    refine (orNothing_reads (h.tail hrest) (ih.node depth _)).bind fun item h => ?_
    exact (ih.listItems depth _ h).bind fun items h => h
  · exact h

theorem blockPairs_succ (ih : ReadsAll handles fuel) (h : s.Sound) :
    Reads Rest (Node.blockPairs handles (fuel + 1) depth s) := by
  rw [Node.blockPairs]
  split
  · next rest hrest => exact h.tail hrest
  · next rest hrest =>
    refine (orNothing_reads (h.tail hrest) (ih.node depth _)).bind fun key h => ?_
    refine (valueOrNothing_reads h (ih.node depth _)).bind fun value h => ?_
    exact (ih.blockPairs depth _ h).bind fun pairs h => h
  · exact unexpected_reads h

theorem flowItems_succ (ih : ReadsAll handles fuel) (h : s.Sound) :
    Reads Rest (Node.flowItems handles (fuel + 1) depth first s) := by
  rw [Node.flowItems]
  split
  · next rest hrest => exact h.tail hrest
  refine (afterComma_reads h).bind fun after hafter => ?_
  split
  · exact sound_tail hafter
  · next rest =>
    split
    · exact TextBreak.tooDeep
    · next depth =>
      refine (singlePair_reads (sound_tail hafter) (ih.node depth _)).bind fun item h => ?_
      exact (ih.flowItems (depth + 1) false _ h).bind fun items h => h
  · refine (ih.node depth .flow { s with tokens := after } hafter).bind fun item h => ?_
    exact (ih.flowItems depth false _ h).bind fun items h => h

theorem flowPairs_succ (ih : ReadsAll handles fuel) (h : s.Sound) :
    Reads Rest (Node.flowPairs handles (fuel + 1) depth first s) := by
  rw [Node.flowPairs]
  split
  · next rest hrest => exact h.tail hrest
  refine (afterComma_reads h).bind fun after hafter => ?_
  split
  · exact sound_tail hafter
  · next rest =>
    refine (orNothing_reads (sound_tail hafter) (ih.node depth _)).bind fun key h => ?_
    refine (valueOrNothing_reads h (ih.node depth _)).bind fun value h => ?_
    exact (ih.flowPairs depth false _ h).bind fun pairs h => h
  · refine (ih.node depth .flow { s with tokens := after } hafter).bind fun key h => ?_
    exact (ih.flowPairs depth false key.2.leave.2 h).bind fun pairs h => h

end ReadsAll

theorem readsAll (handles : Handles) (fuel : Nat) : ReadsAll handles fuel := by
  induction fuel with
  | zero =>
    exact
      { node := fun _ _ _ h => unexpected_reads h
        content := fun _ _ _ _ _ _ h => unexpected_reads h
        blockItems := fun _ _ h => unexpected_reads h
        listItems := fun _ _ h => unexpected_reads h
        blockPairs := fun _ _ h => unexpected_reads h
        flowItems := fun _ _ _ h => unexpected_reads h
        flowPairs := fun _ _ _ h => unexpected_reads h }
  | succ fuel ih =>
    exact
      { node := fun _ _ _ h => ih.node_succ h
        content := fun _ _ _ _ _ _ h => ih.content_succ h
        blockItems := fun _ _ h => ih.blockItems_succ h
        listItems := fun _ _ h => ih.listItems_succ h
        blockPairs := fun _ _ h => ih.blockPairs_succ h
        flowItems := fun _ _ _ h => ih.flowItems_succ h
        flowPairs := fun _ _ _ h => ih.flowPairs_succ h }

end Node

/-! ### Documents -/

variable {tokens : List Token}

theorem directives_reads (version : Bool) (set : Handles) (h : ∀ t ∈ tokens, t.Sound) :
    Reads (fun r => ∀ t ∈ r.2, t.Sound) (directives version set tokens) := by
  induction tokens generalizing version set with
  | nil => exact h
  | cons t rest ih =>
    have hrest := Node.sound_tail h
    unfold directives
    split
    · next he =>
      cases he
      exact .ite trivial (ih _ _ hrest)
    · next he =>
      cases he
      exact .ite trivial (ih _ _ hrest)
    · next he =>
      cases he
      exact ih _ _ hrest
    · exact h

theorem root_reads (handles : Handles) (h : ∀ t ∈ tokens, t.Sound) :
    Reads (fun r => ∀ t ∈ r.2, t.Sound) (root handles tokens) :=
  ((Node.readsAll handles _).node mostOpen .block { tokens } h).bind fun _ h => h

theorem dropWhile_sound (p : Token → Bool) (h : ∀ t ∈ tokens, t.Sound) :
    ∀ t ∈ tokens.dropWhile p, t.Sound := fun t ht =>
  h t ((List.dropWhile_sublist p).subset ht)

theorem openedDocument_reads (h : ∀ t ∈ tokens, t.Sound) :
    Reads (fun r => ∀ t ∈ r.2, t.Sound) (openedDocument tokens) := by
  have hdrop := dropWhile_sound (· == .documentEnd) h
  unfold openedDocument
  split
  · next he =>
    intro t ht
    exact hdrop t (he ▸ ht)
  refine (directives_reads false [] hdrop).bind ?_
  rintro ⟨handles, after⟩ hafter
  simp only
  split
  · have hrest := Node.sound_tail hafter
    split
    · exact .ite hrest ((root_reads _ hrest).bind fun _ h => h)
    · exact trivial
  · exact Node.unexpected_reads hafter

theorem firstDocument_reads (h : ∀ t ∈ tokens, t.Sound) :
    Reads (fun r => ∀ t ∈ r.2, t.Sound) (firstDocument tokens) := by
  unfold firstDocument
  split
  · exact .ite (openedDocument_reads h) ((root_reads _ h).bind fun _ h => h)
  · exact trivial

theorem finished_reads (h : ∀ t ∈ tokens, t.Sound) : Reads Anything (finished tokens) := by
  unfold finished
  split
  · exact trivial
  · exact (directives_reads _ _ (dropWhile_sound _ h)).bind fun r h => Node.unexpected_reads h

theorem document_reads (text : List Rune) : Reads Anything (document text) := by
  refine (firstDocument_reads (tokens_sound text)).bind fun r h => ?_
  exact (finished_reads h).bind fun _ _ => trivial

end ApiPrep.Yaml
