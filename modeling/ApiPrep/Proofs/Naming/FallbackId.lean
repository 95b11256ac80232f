import ApiPrep.Naming.IdRule
import ApiPrep.Proofs.Path.Grammar
import ApiPrep.Proofs.Path.Segments

namespace ApiPrep

open ApiPrep.Path ApiPrep.Text

/-- A segment of a path: literal text, or a placeholder and nothing besides. -/
inductive Path.Segment where
  | literal (text : List Rune)
  | placeholder (name : List Rune)
deriving DecidableEq, Repr

variable {name rest s : List Rune} {segments : List Segment}

namespace Path.Segment

def text : Segment → List Rune
  | literal s => s
  | placeholder name => .char '{' :: name ++ [.char '}']

def literal? : Segment → Option (List Rune)
  | literal s => some s
  | placeholder _ => none

def WellFormed : Segment → Prop
  | literal s => Plain s ∧ .char '/' ∉ s
  | placeholder name => Plain name ∧ name ≠ []

instance : (segment : Segment) → Decidable segment.WellFormed
  | literal s => inferInstanceAs (Decidable (Plain s ∧ .char '/' ∉ s))
  | placeholder name => inferInstanceAs (Decidable (Plain name ∧ name ≠ []))

def path (segments : List Segment) : List Rune := slashed (segments.map text)

def lastLiteral? (segments : List Segment) : Option (List Rune) :=
  ((segments.filterMap literal?).filter (· ≠ [])).getLast?

theorem path_cons (segment : Segment) (segments : List Segment) :
    path (segment :: segments) = .char '/' :: segment.text ++ path segments := rfl

theorem path_ne_open (segments : List Segment) (s : List Rune) :
    path segments ≠ .char '{' :: s := by
  cases segments with
  | nil => exact (List.cons_ne_nil _ _).symm
  | cons segment segments =>
    intro h
    exact absurd (List.cons.inj h).1 (by decide)

theorem not_closed_in_path (h : ∀ g ∈ segments, g.WellFormed) :
    .char '}' ∉ (path segments).takeWhile (· ≠ .char '{') := by
  induction segments with
  | nil => exact List.not_mem_nil
  | cons segment segments ih =>
    obtain ⟨hsegment, hsegments⟩ := List.forall_mem_cons.1 h
    cases segment with
    | literal s =>
      have hplain : Plain ('/' :: s) := plain_cons.2 ⟨by decide, hsegment.1⟩
      have htake : (path (literal s :: segments)).takeWhile (· ≠ .char '{') =
          .char '/' :: s ++ (path segments).takeWhile (· ≠ .char '{') :=
        List.takeWhile_append_of_pos fun c hc => decide_eq_true (hplain c hc).1
      rw [htake, List.mem_append, not_or]
      exact ⟨fun hc => (hplain _ hc).2 rfl, ih hsegments⟩
    | placeholder name =>
      have htake : (path (placeholder name :: segments)).takeWhile (· ≠ .char '{') = ['/'] := rfl
      rw [htake]
      decide

end Path.Segment

namespace Naming

/-! ### Placeholders -/

theorem placeholderSize?_eq_none (h : ∀ t, s ≠ .char '{' :: t) : placeholderSize? s = none := by
  unfold placeholderSize?
  split
  · exact absurd rfl (h _)
  · rfl

/-- The longest placeholder ends at the last brace that is closed before another is opened. -/
theorem placeholderSize?_braced (hname : .char '{' ∉ name)
    (hrest : .char '}' ∉ rest.takeWhile (· ≠ .char '{')) :
    placeholderSize? (.char '{' :: (name ++ .char '}' :: rest)) = some (name.length + 2) := by
  have htake : (name ++ .char '}' :: rest).takeWhile (· ≠ .char '{') =
      name ++ .char '}' :: rest.takeWhile (· ≠ .char '{') := by
    refine (List.takeWhile_append_of_pos fun c hc => decide_eq_true ?_).trans ?_
    · rintro rfl
      exact hname hc
    · rw [List.takeWhile_cons_of_pos (by decide)]
  have hbody :
      ((name ++ .char '}' :: rest).takeWhile (· ≠ .char '{')).reverse.dropWhile (· ≠ .char '}') =
      .char '}' :: name.reverse := by
    rw [htake, List.reverse_append, List.reverse_cons, List.append_assoc,
      List.dropWhile_append_of_pos, List.singleton_append, List.dropWhile_cons_of_neg (by decide)]
    intro c hc
    refine decide_eq_true ?_
    rintro rfl
    exact hrest (List.mem_reverse.1 hc)
  rw [placeholderSize?, hbody, List.isEmpty_cons, if_neg Bool.false_ne_true, List.length_cons,
    List.length_reverse]

theorem dropPlaceholders_skip (s t : List Rune) :
    dropPlaceholders s.length (s ++ t) = dropPlaceholders 0 t := by
  induction s with
  | nil => rfl
  | cons c s ih => exact ih

theorem dropPlaceholders_append (hs : .char '/' ∉ s) (t : List Rune) :
    dropPlaceholders 0 (s ++ t) = s ++ dropPlaceholders 0 t := by
  induction s with
  | nil => rfl
  | cons c s ih =>
    obtain ⟨hc, hs⟩ := not_or.1 (mt List.mem_cons.2 hs)
    rw [List.cons_append, dropPlaceholders, if_neg (Ne.symm hc), ih hs, List.cons_append]

theorem dropPlaceholders_path (h : ∀ g ∈ segments, g.WellFormed) :
    dropPlaceholders 0 (Segment.path segments) =
      slashed (segments.filterMap Segment.literal?) := by
  induction segments with
  | nil => rfl
  | cons segment segments ih =>
    obtain ⟨hsegment, hsegments⟩ := List.forall_mem_cons.1 h
    rw [Segment.path_cons, List.cons_append, dropPlaceholders, if_pos rfl]
    cases segment with
    | literal s =>
      obtain ⟨hplain, hslash⟩ := hsegment
      have hnone : placeholderSize? (s ++ Segment.path segments) = none := by
        refine placeholderSize?_eq_none fun t ht => ?_
        cases s with
        | nil => exact Segment.path_ne_open segments t ht
        | cons c s => exact (plain_cons.1 hplain).1.1 (List.cons.inj ht).1
      rw [Segment.text, hnone]
      dsimp only
      rw [dropPlaceholders_append hslash, ih hsegments]
      rfl
    | placeholder name =>
      -- The name may hold slashes, so it is passed over by its length.
      have hname : .char '{' ∉ name := fun hc => (hsegment.1 _ hc).1 rfl
      have hsize := placeholderSize?_braced hname (Segment.not_closed_in_path hsegments)
      have htext : (Segment.placeholder name).text ++ Segment.path segments =
          .char '{' :: (name ++ .char '}' :: Segment.path segments) :=
        congrArg (Rune.char '{' :: ·) (List.append_assoc name ['}'] _)
      have hlength : (Segment.placeholder name).text.length = name.length + 2 :=
        congrArg (· + 1) List.length_append
      rw [← htext, ← hlength] at hsize
      rw [hsize]
      dsimp only
      rw [dropPlaceholders_skip, ih hsegments]
      rfl

/-! ### The last literal segment -/

theorem fallbackId_path (h : ∀ g ∈ segments, g.WellFormed) (method : List Rune) :
    fallbackId (Segment.path segments) method =
      (((Segment.lastLiteral? segments).map sanitize).filter (· ≠ [])).getD (lower method) := by
  have hslash : ∀ s ∈ segments.filterMap Segment.literal?, .char '/' ∉ s := by
    intro s hs
    obtain ⟨segment, hmem, he⟩ := List.mem_filterMap.1 hs
    cases segment with
    | literal t => exact Option.some.inj he ▸ (h _ hmem).2
    | placeholder name => cases he
  have hwords : wordsBy (· == '/') (dropPlaceholders 0 (Segment.path segments)) =
      (segments.filterMap Segment.literal?).filter (· ≠ []) := by
    rw [dropPlaceholders_path h, wordsBy, splitBy_slashed hslash]
    rfl
  rw [fallbackId, hwords, ← Segment.lastLiteral?]
  cases Segment.lastLiteral? segments with
  | none => rfl
  | some s =>
    change (if (sanitize s).isEmpty then lower method else sanitize s) =
      ((some (sanitize s)).filter (· ≠ [])).getD (lower method)
    cases sanitize s <;> rfl

/-- An operation keeps an id that is not blank. Without one it gets the cleaned form of the last
literal segment of its path that is not empty, or the method in lower case if there is no such
segment or nothing is left of it. -/
theorem idOrFallback_of_segments (h : ∀ g ∈ segments, g.WellFormed) (id : Option Text)
    (method : Text) :
    (∀ given ∈ id, blank given.toList = false → ∀ path, idOrFallback id path method = pure given) ∧
    ((∀ given ∈ id, blank given.toList = true) →
      (idOrFallback id (Text.ofList (Segment.path segments)) method).value =
        Text.ofList ((((Segment.lastLiteral? segments).map sanitize).filter (· ≠ [])).getD
          (lower method.toList))) := by
  constructor
  · intro given hgiven hblank path
    obtain rfl : id = some given := hgiven
    rw [idOrFallback, Option.getD_some, hblank]
    rfl
  · intro hid
    have hblank : blank (id.getD "").toList = true := by
      cases id with
      | none => rfl
      | some given => exact hid given rfl
    rw [idOrFallback, hblank]
    change Text.ofList (fallbackId (Text.ofList _).toList method.toList) = _
    rw [Text.toList_ofList, fallbackId_path h]

theorem idOrFallback_of_segments_nested :
    (∀ g ∈ [.literal "Api".runes, .literal "stock list".runes, .placeholder "a/b".runes,
      .literal [], .placeholder "id".runes], Segment.WellFormed g) ∧
    (∀ given ∈ (some " " : Option Text), blank given.toList = true) ∧
    (idOrFallback (some " ") "/Api/stock list/\x7ba/b\x7d//\x7bid\x7d" "GET").value =
      "stock_list" := by
  have h : ∀ g ∈ [.literal "Api".runes, .literal "stock list".runes, .placeholder "a/b".runes,
      .literal [], .placeholder "id".runes], Segment.WellFormed g := by decide
  have hblank : ∀ given ∈ (some " " : Option Text), blank given.toList = true := by decide
  have hid := (idOrFallback_of_segments h (some " ") "GET").2 hblank
  exact ⟨h, hblank, hid.trans (by decide +kernel)⟩

end Naming

end ApiPrep
