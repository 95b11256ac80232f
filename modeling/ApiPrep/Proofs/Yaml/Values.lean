import ApiPrep.Proofs.Yaml.Nodes

namespace ApiPrep.Yaml

open Outcome

variable {α : Type}

/-- How the making of values can break down. -/
inductive ValueBreak : Breakdown → Prop
  /-- Mappings are merged into one another, or a text is looked for in a mapping, without end. -/
  | tooDeep : ValueBreak .tooDeep
  /-- A collection stands where a timestamp should. -/
  | noText : ValueBreak .noText
  | noDigits : ValueBreak .noDigits
  | noTruthWord : ValueBreak .noTruthWord
  | noTimestamp : ValueBreak .noTimestamp
  /-- A number in sixtieths has too many pieces. -/
  | overflow : ValueBreak .overflow
  | tooManyDigits (count : Nat) (many : Decimal.mostDigits < count) :
      ValueBreak (.tooManyDigits (some count))
  | badInteger (text : Text) (base : Nat) : ValueBreak (.badInteger text base)
  | badFloat (text : Text) : ValueBreak (.badFloat text)
  | badMoment (f : CalendarFault) : ValueBreak (.badMoment f)

abbrev Makes (post : α → Prop) (x : Except Fault α) : Prop := Ends post (Fault.Of ValueBreak) x

/-! ### Scalars -/

theorem integerOfText_ends (base : Nat) (text : List Rune) :
    Ends Anything ValueBreak (integerOfText base text) := by
  unfold integerOfText
  extract_lets bad
  split
  split
  · exact ValueBreak.badInteger _ _
  refine .ite (ValueBreak.badInteger _ _) ?_
  split
  · next hmany => exact ValueBreak.tooManyDigits _ hmany.2
  · exact trivial

theorem floatOfText_ends (text : List Rune) : Ends Anything ValueBreak (floatOfText text) := by
  unfold floatOfText
  extract_lets bad
  split
  extract_lets word
  refine .ite trivial (.ite trivial ?_)
  split
  split
  split
  · exact ValueBreak.badFloat _
  · exact .ite (ValueBreak.badFloat _) trivial

theorem breaking_makes {post : α → Prop} {x : Except Breakdown α} (h : Ends post ValueBreak x) :
    Makes post (breaking x) := by
  cases x with
  | ok a => exact h
  | error b => exact h

theorem intOfText_makes (text : List Rune) : Makes Anything (intOfText text) := by
  unfold intOfText
  extract_lets bare
  split
  refine .ite ValueBreak.noDigits ?_
  refine (breaking_makes (?_ : Ends Anything ValueBreak _)).bind fun _ _ => trivial
  split
  · exact trivial
  · exact integerOfText_ends _ _
  · exact integerOfText_ends _ _
  · exact integerOfText_ends _ _
  · refine .ite ?_ (integerOfText_ends _ _)
    exact (Ends.mapM (integerOfText_ends 10) _).map fun _ _ => trivial

theorem sixtiethFloats_makes (base : Nat) (sum : Float) (pieces : List Float) :
    Makes Anything (sixtiethFloats base sum pieces) := by
  induction pieces generalizing base sum with
  | nil => exact trivial
  | cons x rest ih => exact .ite ValueBreak.overflow (ih _ _)

theorem floatOfPlain_makes (text : List Rune) : Makes Anything (floatOfPlain text) := by
  unfold floatOfPlain
  extract_lets bare
  refine .ite ValueBreak.noDigits ?_
  split
  refine .ite trivial (.ite trivial (.ite ?_ ?_))
  · refine (breaking_makes (Ends.mapM floatOfText_ends _)).bind fun pieces _ => ?_
    exact (sixtiethFloats_makes _ _ _).bind fun _ _ => trivial
  · exact (breaking_makes (floatOfText_ends _)).bind fun _ _ => trivial

theorem timestampOfText_makes (text : List Rune) : Makes Anything (timestampOfText text) := by
  unfold timestampOfText
  split
  · exact ValueBreak.noTimestamp
  split
  · exact trivial
  · exact ValueBreak.badMoment _

theorem scalarOfText_makes (tag : Tag) (text : List Rune) :
    Makes Anything (scalarOfText tag text) := by
  unfold scalarOfText
  split
  · exact trivial
  · split
    · exact trivial
    · exact ValueBreak.noTruthWord
  · exact (intOfText_makes text).map fun _ _ => trivial
  · exact (floatOfPlain_makes text).map fun _ _ => trivial
  · exact timestampOfText_makes text
  · exact trivial
  · split
    · exact .ite trivial trivial
    · exact trivial
  · exact trivial

/-! ### Merging -/

namespace Nodes

variable {nodes : Nodes}

theorem mergeFrom_succ {fuel : Nat}
    (hfrom : ∀ id index merged nodes, Makes Anything (mergeFrom fuel id index merged nodes))
    (heach : ∀ ids nodes, Makes Anything (mergeEach fuel ids nodes)) (id index : Nat)
    (merged : Array (Nat × Nat)) (nodes : Nodes) :
    Makes Anything (mergeFrom (fuel + 1) id index merged nodes) := by
  rw [mergeFrom]
  split
  · exact trivial
  split
  · exact trivial
  split
  · extract_lets without
    split
    · exact (hfrom _ _ _ _).bind fun _ _ => hfrom _ _ _ _
    · exact (heach _ _).bind fun _ _ => hfrom _ _ _ _
    · exact trivial
  · exact hfrom _ _ _ _
  · exact hfrom _ _ _ _

theorem mergeEach_succ {fuel : Nat}
    (hfrom : ∀ id index merged nodes, Makes Anything (mergeFrom fuel id index merged nodes))
    (heach : ∀ ids nodes, Makes Anything (mergeEach fuel ids nodes)) (ids : List Nat)
    (nodes : Nodes) : Makes Anything (mergeEach (fuel + 1) ids nodes) := by
  cases ids with
  | nil => exact trivial
  | cons id rest => exact (hfrom _ _ _ _).bind fun _ _ => (heach _ _).bind fun _ _ => trivial

theorem merge_steps (fuel : Nat) :
    (∀ id index merged nodes, Makes Anything (mergeFrom fuel id index merged nodes)) ∧
      ∀ ids nodes, Makes Anything (mergeEach fuel ids nodes) := by
  induction fuel with
  | zero => exact ⟨fun _ _ _ _ => ValueBreak.tooDeep, fun _ _ => ValueBreak.tooDeep⟩
  | succ fuel ih => exact ⟨mergeFrom_succ ih.1 ih.2, mergeEach_succ ih.1 ih.2⟩

theorem merge_makes (nodes : Nodes) (id : Nat) : Makes Anything (nodes.merge id) :=
  (merge_steps mostSteps).1 id 0 #[] nodes

/-! ### Building -/

theorem text_makes (nodes : Nodes) (fuel id : Nat) : Makes Anything (nodes.text fuel id) := by
  induction fuel generalizing id with
  | zero => exact ValueBreak.tooDeep
  | succ fuel ih =>
    rw [text]
    split
    · exact trivial
    · split
      · exact ih _
      · exact trivial
    · exact trivial

theorem scalar_makes (nodes : Nodes) (id : Nat) : Makes Anything (nodes.scalar id) := by
  unfold scalar
  split
  · exact trivial
  refine .ite trivial ((text_makes _ _ _).bind fun _ _ => ?_)
  split
  · exact ValueBreak.noText
  · exact scalarOfText_makes _ _

end Nodes

namespace Builder

theorem meet_makes (b : Builder) (id : Nat) : Makes Anything (b.meet id) := by
  unfold meet
  refine .ite trivial ?_
  split
  · exact trivial
  · exact (Nodes.scalar_makes _ _).bind fun _ _ => trivial

theorem meetPairs_makes (b : Builder) (entries : List ((Scalar × Nat) × Nat))
    (pairs : List (Nat × Nat)) : Makes Anything (b.meetPairs entries pairs) := by
  induction pairs generalizing b entries with
  | nil => exact trivial
  | cons pair rest ih =>
    refine (meet_makes _ _).bind fun b _ => ?_
    split
    · exact (meet_makes _ _).bind fun _ _ => ih _ _
    · exact trivial

theorem meetEntries_makes (b : Builder) (id : Nat) : Makes Anything (b.meetEntries id) := by
  unfold meetEntries
  split
  · exact trivial
  · exact (Nodes.merge_makes _ _).bind fun _ _ => meetPairs_makes _ _ _

theorem meetSingles_makes (b : Builder) (ids : List Nat) : Makes Anything (b.meetSingles ids) := by
  induction ids generalizing b with
  | nil => exact trivial
  | cons id rest ih =>
    rw [meetSingles]
    split
    · refine (meet_makes _ _).bind fun _ _ => (meet_makes _ _).bind fun _ _ => ?_
      exact (ih _).bind fun _ _ => trivial
    · exact trivial

theorem fill_makes (b : Builder) (id : Nat) : Makes Anything (b.fill id) := by
  unfold fill
  split
  · exact (Ends.foldlM (fun b id _ => meet_makes b id) _ trivial).bind fun _ _ => trivial
  · exact (meetSingles_makes _ _).bind fun _ _ => trivial
  · exact (meetEntries_makes _ _).bind fun _ _ => trivial
  · exact (meetEntries_makes _ _).bind fun _ _ => trivial
  · exact trivial

theorem finish_makes (fuel : Nat) (round : List Nat) (b : Builder) :
    Makes Anything (finish fuel round b) := by
  induction fuel generalizing round b with
  | zero => cases round <;> exact trivial
  | succ fuel ih =>
    cases round with
    | nil => exact .ite trivial (ih _ _)
    | cons id rest => exact (fill_makes _ _).bind fun _ _ => ih _ _

end Builder

theorem Nodes.build_makes (nodes : Nodes) (root : Nat) : Makes Anything (nodes.build root) := by
  refine (Builder.meet_makes _ _).bind fun _ _ => ?_
  exact (Builder.finish_makes _ _ _).bind fun _ _ => trivial

/-! ### Texts -/

def ReadBreak (b : Breakdown) : Prop := TextBreak b ∨ ValueBreak b

/-- A text is read, or it is malformed, or its reading breaks down in one of the known ways. -/
theorem read_ends (text : Text) : Ends Anything (Fault.Of ReadBreak) (read text) := by
  refine ((document_reads _).mono fun f hf => ?_).bind fun document _ => ?_
  · exact hf.imp fun b => .inl
  split
  · exact trivial
  · exact (Nodes.build_makes _ _).mono fun f hf => hf.imp fun b => .inr

example : fault? (read "a: 2001-13-01") = some (.broken (.badMoment .month)) := by decide +kernel

end ApiPrep.Yaml
