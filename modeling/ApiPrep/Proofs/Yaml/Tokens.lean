import ApiPrep.Proofs.Outcome
import ApiPrep.Yaml.Token.Scan

namespace ApiPrep.Yaml

open Outcome

variable {α : Type}

/-! ### Faults -/

/-- How the reading of tokens and nodes can break down. -/
inductive TextBreak : Breakdown → Prop
  | tooDeep : TextBreak .tooDeep
  | overflow : TextBreak .overflow
  | badCodePoint : TextBreak .badCodePoint
  | tooManyDigits (count : Nat) (many : Decimal.mostDigits < count) :
      TextBreak (.tooManyDigits (some count))

/-- A text is malformed, or reading it breaks down in one of the given ways. -/
def Fault.Of (ways : Breakdown → Prop) : Fault → Prop
  | .malformed => True
  | .broken b => ways b

theorem Fault.Of.imp {ways others : Breakdown → Prop} {f : Fault} (hf : f.Of ways)
    (h : ∀ b, ways b → others b) : f.Of others := by
  cases f with
  | malformed => exact trivial
  | broken b => exact h b hf

/-- What is read from a text has a property; if nothing is read, this is a fault of the text. -/
abbrev Reads (post : α → Prop) (x : Except Fault α) : Prop := Ends post (Fault.Of TextBreak) x

def Anything (_ : α) : Prop := True

/-! ### Names -/

variable {s : Cursor}

theorem ignoredLine_reads (s : Cursor) : Reads Anything (ignoredLine s) := by
  unfold ignoredLine
  extract_lets s₁ s₂
  split <;> exact trivial

theorem anchorName_reads (s : Cursor) : Reads Anything (anchorName s) := by
  unfold anchorName
  split
  extract_lets ended
  split <;> exact trivial

theorem escapedBytes_reads (fuel : Nat) (s : Cursor) : Reads Anything (escapedBytes fuel s) := by
  induction fuel generalizing s with
  | zero => exact trivial
  | succ fuel ih =>
    rw [escapedBytes]
    split
    · split
      · exact (ih _).bind fun _ _ => trivial
      · exact trivial
    · exact trivial

theorem tagChars_reads (fuel : Nat) (s : Cursor) : Reads Anything (tagChars fuel s) := by
  induction fuel generalizing s with
  | zero => exact trivial
  | succ fuel ih =>
    rw [tagChars]
    split
    split
    · refine (escapedBytes_reads _ _).bind fun _ _ => ?_
      split
      split
      · exact trivial
      · exact (ih _).bind fun _ _ => trivial
    · exact trivial

theorem tagText_reads (s : Cursor) : Reads Anything (tagText s) := by
  refine (tagChars_reads _ s).bind fun _ _ => ?_
  split
  split <;> exact trivial

theorem tagHandle_reads (s : Cursor) : Reads Anything (tagHandle s) := by
  unfold tagHandle
  split
  · exact trivial
  split
  · exact trivial
  split
  split <;> exact trivial

theorem verbatimTag_reads (s : Cursor) : Reads Anything (verbatimTag s) := by
  refine (tagText_reads _).bind fun _ _ => ?_
  split
  split <;> exact trivial

theorem handledTag_reads (s : Cursor) : Reads Anything (handledTag s) := by
  unfold handledTag
  extract_lets finish
  have hfinish (r : List Rune × Cursor) : Reads Anything (finish r) := by
    simp only [finish]
    exact (tagText_reads _).bind fun _ _ => trivial
  clear_value finish
  split
  · exact (tagHandle_reads s).bind fun r _ => hfinish r
  · exact .ok_bind (hfinish _)

theorem tagName_reads (s : Cursor) : Reads Anything (tagName s) := by
  unfold tagName
  extract_lets finish
  have hfinish (r : TagName × Cursor) : Reads Anything (finish r) := by
    simp only [finish]
    exact .ite trivial trivial
  clear_value finish
  split
  · exact (verbatimTag_reads s).bind fun r _ => hfinish r
  split
  · exact .ok_bind (hfinish _)
  · exact (handledTag_reads s).bind fun r _ => hfinish r

theorem directiveNumber_reads (s : Cursor) : Reads Anything (directiveNumber s) := by
  unfold directiveNumber
  split
  · exact trivial
  split
  · next hmany => exact TextBreak.tooManyDigits _ hmany
  · exact trivial

def Token.Sound : Token → Prop
  | .fault f => f.Of TextBreak
  | _ => True

theorem versionDirective_reads (s : Cursor) :
    Reads (fun r => Token.Sound r.1) (versionDirective s) := by
  refine (directiveNumber_reads _).bind fun _ _ => ?_
  split
  split
  · exact trivial
  refine (directiveNumber_reads _).bind fun _ _ => ?_
  split
  split <;> exact trivial

theorem tagDirective_reads (s : Cursor) : Reads (fun r => Token.Sound r.1) (tagDirective s) := by
  refine (tagHandle_reads _).bind fun _ _ => ?_
  split
  split
  · exact trivial
  refine (tagText_reads _).bind fun _ _ => ?_
  split
  split <;> exact trivial

theorem directive_reads (s : Cursor) : Reads (fun r => Token.Sound r.1) (directive s) := by
  unfold directive
  split
  split
  · exact trivial
  extract_lets finish
  have hfinish (r : Token × Cursor) (hr : r.1.Sound) :
      Reads (fun r => Token.Sound r.1) (finish r) := by
    simp only [finish]
    exact (ignoredLine_reads _).bind fun _ _ => hr
  clear_value finish
  split
  · exact (versionDirective_reads _).bind hfinish
  split
  · exact (tagDirective_reads _).bind hfinish
  · exact .ok_bind (hfinish _ trivial)

/-! ### Quoted texts -/

theorem lineBreaks_reads (fuel : Nat) (s : Cursor) : Reads Anything (lineBreaks fuel s) := by
  induction fuel generalizing s with
  | zero => exact trivial
  | succ fuel ih =>
    rw [lineBreaks]
    split
    · exact trivial
    extract_lets s₁
    split
    · exact trivial
    · exact (ih _).bind fun _ _ => trivial

theorem quotedSpaces_reads (fuel : Nat) (s : Cursor) : Reads Anything (quotedSpaces fuel s) := by
  unfold quotedSpaces
  split
  split
  · exact trivial
  split
  · exact trivial
  · exact (lineBreaks_reads _ _).bind fun _ _ => trivial

theorem charOfCode_reads (code : Nat) : Reads Anything (charOfCode code) := by
  unfold charOfCode
  split
  · exact TextBreak.overflow
  split
  · exact TextBreak.badCodePoint
  exact trivial

theorem escaped_reads (s : Cursor) : Reads Anything (escaped s) := by
  unfold escaped
  split
  · exact trivial
  split
  · exact trivial
  · split
    · split
      · exact trivial
      · exact (charOfCode_reads _).bind fun _ _ => trivial
    · exact trivial
  · split
    · exact lineBreaks_reads _ _
    · exact trivial

theorem quotedWord_reads (double : Bool) (fuel : Nat) (s : Cursor) :
    Reads Anything (quotedWord double fuel s) := by
  induction fuel generalizing s with
  | zero => exact trivial
  | succ fuel ih =>
    rw [quotedWord]
    split
    extract_lets finish
    have hfinish (r : List Rune × Cursor) : Reads Anything (finish r) := by
      simp only [finish]
      split
      · exact trivial
      · exact (ih _).bind fun _ _ => trivial
    clear_value finish
    split
    · split
      · exact .ok_bind (hfinish _)
      split
      · exact .ok_bind (hfinish _)
      · exact .ok_bind (hfinish _)
    · exact .ok_bind (hfinish _)
    · split
      · exact (escaped_reads _).bind fun r _ => hfinish r
      · exact .ok_bind (hfinish _)
    · exact .ok_bind (hfinish _)

theorem quotedRest_reads (double : Bool) (fuel : Nat) (s : Cursor) :
    Reads Anything (quotedRest double fuel s) := by
  induction fuel generalizing s with
  | zero => exact trivial
  | succ fuel ih =>
    rw [quotedRest]
    refine (quotedWord_reads _ _ _).bind fun _ _ => ?_
    refine .ite trivial ?_
    refine (quotedSpaces_reads _ _).bind fun _ _ => ?_
    exact (ih _).bind fun _ _ => trivial

theorem quotedScalar_reads (s : Cursor) : Reads Anything (quotedScalar s) :=
  quotedRest_reads _ _ _

/-! ### Block texts -/

theorem increment?_reads (s : Cursor) : Reads Anything (increment? s) := by
  unfold increment?
  split
  · split
    · split <;> exact trivial
    · exact trivial
  · exact trivial

theorem blockHeader_reads (s : Cursor) : Reads Anything (blockHeader s) := by
  unfold blockHeader
  extract_lets finish
  have hfinish (r : BlockHeader × Cursor) : Reads Anything (finish r) := by
    simp only [finish]
    split
    · exact (ignoredLine_reads _).bind fun _ _ => trivial
    · exact trivial
  clear_value finish
  split
  · exact (increment?_reads _).bind fun _ _ => .ok_bind (hfinish _)
  · refine (increment?_reads _).bind fun r _ => ?_
    split
    split
    · exact .ok_bind (hfinish _)
    · exact .ok_bind (hfinish _)

theorem blockScalar_reads (outer : Int) (s : Cursor) : Reads Anything (blockScalar outer s) :=
  (blockHeader_reads _).bind fun _ _ => trivial

/-! ### The scanner -/

namespace Scanner

def Sound (s : Scanner) : Prop := ∀ t ∈ s.tokens, t.Sound

variable {s : Scanner} {t : Token}

theorem Sound.push (h : s.Sound) (ht : t.Sound) : ∀ u ∈ s.tokens.push t, u.Sound := by
  intro u hu
  rcases Array.mem_push.1 hu with hu | rfl
  · exact h u hu
  · exact ht

theorem Sound.insert {tokens : Array Token} (h : ∀ u ∈ tokens, u.Sound) (ht : t.Sound)
    (number : Nat) : ∀ u ∈ tokens.insertIdxIfInBounds number t, u.Sound := by
  intro u hu
  rw [Array.insertIdxIfInBounds] at hu
  split at hu
  · rcases Array.mem_insertIdx.1 hu with rfl | hu
    · exact ht
    · exact h u hu
  · exact h u hu

theorem dropStale_reads (h : s.Sound) : Reads Sound s.dropStale := by
  unfold dropStale
  split
  · exact trivial
  · exact h

theorem dropCandidate_reads (h : s.Sound) : Reads Sound s.dropCandidate := by
  unfold dropCandidate
  split
  · exact trivial
  · exact h

theorem offerKey_reads (h : s.Sound) : Reads Sound s.offerKey := by
  unfold offerKey
  split
  · exact (dropCandidate_reads h).bind fun _ h => h
  · exact h

theorem unwindFrom_sound (column indent : Int) {tokens : Array Token}
    (h : ∀ t ∈ tokens, t.Sound) (outer : List Int) :
    ∀ t ∈ (unwindFrom column indent tokens outer).2.2, t.Sound := by
  induction outer generalizing indent tokens with
  | nil => exact h
  | cons up outer ih =>
    rw [unwindFrom]
    split
    · refine ih up fun t ht => ?_
      rcases Array.mem_push.1 ht with ht | rfl
      · exact h t ht
      · exact trivial
    · exact h

theorem unwind_sound (h : s.Sound) (column : Int) : (s.unwind column).Sound := by
  unfold unwind
  split
  · exact h
  · exact unwindFrom_sound column s.indent h s.outer

theorem openBlock_sound (h : s.Sound) (ht : t.Sound) (column number : Nat) :
    (s.openBlock column t number).Sound := by
  unfold openBlock
  split
  · exact Sound.insert h ht number
  · exact h

theorem skipBlank_sound (h : s.Sound) (fuel : Nat) : (skipBlank fuel s).Sound := by
  induction fuel generalizing s with
  | zero => exact h
  | succ fuel ih =>
    rw [skipBlank]
    split
    · exact h
    · exact ih h

theorem fetchNode_reads (h : s.Sound) {read : Cursor → Except Fault (Token × Cursor)}
    (hread : ∀ p, Reads (fun r => Token.Sound r.1) (read p)) : Reads Sound (s.fetchNode read) := by
  refine (offerKey_reads h).bind fun s h => ?_
  exact (hread _).bind fun r hr => h.push hr

theorem fetchPlain_reads (h : s.Sound) (fuel : Nat) : Reads Sound (s.fetchPlain fuel) :=
  (offerKey_reads h).bind fun _ h => h.push trivial

theorem fetchBlockScalar_reads (h : s.Sound) : Reads Sound s.fetchBlockScalar := by
  refine (dropCandidate_reads h).bind fun s h => ?_
  exact (blockScalar_reads _ _).bind fun r _ => h.push trivial

theorem fetchOutside_reads (h : s.Sound) {read : Cursor → Except Fault (Token × Cursor)}
    (hread : ∀ p, Reads (fun r => Token.Sound r.1) (read p)) :
    Reads Sound (s.fetchOutside read) := by
  refine (dropCandidate_reads (unwind_sound h _)).bind fun s h => ?_
  exact (hread _).bind fun r hr => h.push hr

theorem fetchOpening_reads (h : s.Sound) (ht : t.Sound) : Reads Sound (s.fetchOpening t) :=
  (offerKey_reads h).bind fun _ h => h.push ht

theorem fetchClosing_reads (h : s.Sound) (ht : t.Sound) : Reads Sound (s.fetchClosing t) :=
  (dropCandidate_reads h).bind fun _ h => h.push ht

theorem fetchFlowEntry_reads (h : s.Sound) : Reads Sound s.fetchFlowEntry :=
  (dropCandidate_reads h).bind fun _ h => h.push trivial

theorem openHere_reads (h : s.Sound) (ht : t.Sound) : Reads Sound (s.openHere t) := by
  unfold openHere
  split
  · exact h
  split
  · exact openBlock_sound h ht _ _
  · exact trivial

theorem fetchBlockEntry_reads (h : s.Sound) : Reads Sound s.fetchBlockEntry := by
  refine (openHere_reads (t := .blockSequenceStart) h trivial).bind fun _ h => ?_
  exact (dropCandidate_reads h).bind fun _ h => h.push trivial

theorem fetchKey_reads (h : s.Sound) : Reads Sound s.fetchKey := by
  refine (openHere_reads (t := .blockMappingStart) h trivial).bind fun _ h => ?_
  exact (dropCandidate_reads h).bind fun _ h => h.push trivial

theorem fetchValue_reads (h : s.Sound) : Reads Sound s.fetchValue := by
  unfold fetchValue
  split
  · next c _ =>
    extract_lets s₁ s₂
    have h₁ : s₁.Sound := Sound.insert (t := .key) h trivial c.token
    have h₂ : s₂.Sound := by
      simp only [s₂]
      split
      · exact openBlock_sound (t := .blockMappingStart) h₁ trivial _ _
      · exact h₁
    exact h₂.push trivial
  · refine (openHere_reads (t := .blockMappingStart) h trivial).bind fun _ h => ?_
    exact (dropCandidate_reads h).bind fun _ h => h.push trivial

theorem fetch_reads (h : s.Sound) (fuel : Nat) (c : Rune) : Reads Sound (s.fetch fuel c) := by
  unfold fetch
  extract_lets next flow first marks
  have hmarks (t : Token) (ht : t.Sound) (p : Cursor) :
      Reads (fun r => Token.Sound r.1) (marks t p) := ht
  refine .ite (fetchOutside_reads h directive_reads) ?_
  refine .ite (fetchOutside_reads h (hmarks .documentStart trivial)) ?_
  refine .ite (fetchOutside_reads h (hmarks .documentEnd trivial)) ?_
  refine .ite (fetchOpening_reads h trivial) (.ite (fetchOpening_reads h trivial) ?_)
  refine .ite (fetchClosing_reads h trivial) (.ite (fetchClosing_reads h trivial) ?_)
  refine .ite (fetchFlowEntry_reads h) (.ite (fetchBlockEntry_reads h) ?_)
  refine .ite (fetchKey_reads h) (.ite (fetchValue_reads h) ?_)
  refine .ite (fetchNode_reads h fun p => (anchorName_reads _).bind fun _ _ => trivial) ?_
  refine .ite (fetchNode_reads h fun p => (anchorName_reads _).bind fun _ _ => trivial) ?_
  refine .ite (fetchNode_reads h fun p => (tagName_reads _).bind fun _ _ => trivial) ?_
  refine .ite (fetchBlockScalar_reads h) ?_
  refine .ite (fetchNode_reads h fun p => (quotedScalar_reads _).bind fun _ _ => trivial) ?_
  exact .ite (fetchPlain_reads h fuel) trivial

theorem step_reads (h : s.Sound) (fuel : Nat) : Reads (fun r => r.1.Sound) (s.step fuel) := by
  refine (dropStale_reads h).bind fun s h => ?_
  extract_lets s₁
  have h₁ : s₁.Sound := unwind_sound h _
  split
  · exact (dropCandidate_reads (unwind_sound h₁ _)).bind fun s h => h.push trivial
  split
  · exact (dropCandidate_reads h₁).bind fun s h => h.push (t := .fault .malformed) trivial
  · refine (fetch_reads h₁ fuel _).bind fun s h => ?_
    exact (dropStale_reads h).bind fun s h => h

theorem settled_sound (h : s.Sound) (ht : t.Sound) : ∀ u ∈ s.settled.push t, u.Sound := by
  have hs : Sound { s with tokens := s.settled } := fun u hu => by
    simp only [settled, Array.take_eq_extract, Array.mem_extract_iff_getElem] at hu
    obtain ⟨k, hk, rfl⟩ := hu
    exact h _ (Array.getElem_mem _)
  exact hs.push ht

theorem run_sound (h : s.Sound) (fuel : Nat) : ∀ t ∈ run fuel s, t.Sound := by
  induction fuel generalizing s with
  | zero => exact settled_sound h (t := .fault .malformed) trivial
  | succ fuel ih =>
    have hstep := step_reads (skipBlank_sound h (fuel + 1)) fuel
    rw [run]
    split
    · next f hf => exact settled_sound h (t := .fault f) (hstep.of_eq_error hf)
    · next s hs =>
      rw [hs] at hstep
      exact hstep
    · next s hs =>
      rw [hs] at hstep
      exact ih hstep

end Scanner

theorem tokens_sound (text : List Rune) : ∀ t ∈ tokens text, t.Sound := by
  unfold tokens
  split
  · intro t ht
    rw [List.mem_singleton.1 ht]
    exact trivial
  · extract_lets start₁ start₂
    intro t ht
    have hstart : Scanner.Sound { place := start₂ } := fun u hu => absurd hu (Array.not_mem_empty u)
    exact Scanner.run_sound hstart _ t (Array.mem_toList_iff.1 ht)

end ApiPrep.Yaml
