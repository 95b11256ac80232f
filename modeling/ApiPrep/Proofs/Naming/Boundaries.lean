import ApiPrep.Proofs.Naming.Conventional

namespace ApiPrep

variable {c : Rune} {r rest s t t' : List Rune}

namespace Text

/-- What `Hit s r rest` says: something at the start of `s`, which `rest` follows, is to be
replaced by `r`. -/
abbrev Hit := List Rune → List Rune → List Rune → Prop

/-- The second text is the first, read once from left to right: where there is a hit it is replaced
and the reading goes on behind it, and all other characters stay. -/
inductive Replaced (hit : Hit) : List Rune → List Rune → Prop
  | nil : Replaced hit [] []
  | hit {s r rest t : List Rune} (h : hit s r rest) (ht : Replaced hit rest t) :
    Replaced hit s (r ++ t)
  | skip {c : Rune} {s t : List Rune} (h : ∀ r rest, ¬hit (c :: s) r rest)
    (ht : Replaced hit s t) : Replaced hit (c :: s) (c :: t)

/-- Hits that take something, and of which there is at most one at each place. -/
structure Hit.Definite (hit : Hit) : Prop where
  shorter : ∀ {s r rest}, hit s r rest → rest.length < s.length
  unique : ∀ {s r rest r' rest'}, hit s r rest → hit s r' rest' → r = r' ∧ rest = rest'

variable {hit : Hit}

theorem Replaced.unique (hd : hit.Definite) (h : Replaced hit s t) (h' : Replaced hit s t') :
    t = t' := by
  induction h generalizing t' with
  | nil =>
    cases h' with
    | nil => rfl
    | hit hhit _ => exact absurd (hd.shorter hhit) (Nat.not_lt_zero _)
  | hit hhit _ ih =>
    cases h' with
    | nil => exact absurd (hd.shorter hhit) (Nat.not_lt_zero _)
    | hit hhit' ht' =>
      obtain ⟨rfl, rfl⟩ := hd.unique hhit hhit'
      rw [ih ht']
    | skip hnone _ => exact absurd hhit (hnone _ _)
  | skip hnone _ ih =>
    cases h' with
    | hit hhit _ => exact absurd hhit (hnone _ _)
    | skip _ ht' => rw [ih ht']

theorem replaced_of_steps {f : List Rune → List Rune} (hd : hit.Definite) (hnil : f [] = [])
    (hhit : ∀ {s r rest}, hit s r rest → f s = r ++ f rest)
    (hskip : ∀ {c s}, (∀ r rest, ¬hit (c :: s) r rest) → f (c :: s) = c :: f s) (s : List Rune) :
    Replaced hit s (f s) := by
  induction hn : s.length using Nat.strongRecOn generalizing s with
  | ind n ih =>
    subst hn
    cases s with
    | nil =>
      rw [hnil]
      exact .nil
    | cons c s =>
      by_cases h : ∃ r rest, hit (c :: s) r rest
      · obtain ⟨r, rest, h⟩ := h
        rw [hhit h]
        exact .hit h (ih rest.length (hd.shorter h) rest rfl)
      · have hnone : ∀ r rest, ¬hit (c :: s) r rest := fun r rest hr => h ⟨r, rest, hr⟩
        rw [hskip hnone]
        exact .skip hnone (ih s.length (Nat.lt_succ_self _) s rfl)

end Text

namespace Naming

open Text

/-! ### The two passes -/

/-- Capitals, the last of which a small letter follows: an underscore is set before that one. -/
def AcronymEnds : Hit := fun s r rest =>
  ∃ run b l, run ≠ [] ∧ (∀ c ∈ run, c.isUpper = true) ∧ b.isUpper = true ∧ l.isLower = true ∧
    s = run ++ b :: l :: rest ∧ r = run ++ [.char '_', b, l]

/-- A small letter or a digit before a capital: an underscore is set between them. -/
def WordEnds : Hit := fun s r rest =>
  ∃ a b, (a.isLower = true ∨ isDigit a = true) ∧ b.isUpper = true ∧ s = a :: b :: rest ∧
    r = [a, '_', b]

theorem isUpper_of_isLower (h : c.isLower = true) : c.isUpper = false := (small_char (.inl h)).1

theorem isLower_of_isUpper (h : c.isUpper = true) : c.isLower = false :=
  Bool.eq_false_iff.2 fun hl => Bool.eq_false_iff.1 (isUpper_of_isLower hl) h

theorem wordEnds_definite : WordEnds.Definite where
  shorter := by
    rintro s r rest ⟨a, b, -, -, rfl, -⟩
    rw [List.length_cons, List.length_cons]
    omega
  unique := by
    rintro s r rest r' rest' ⟨a, b, -, -, rfl, rfl⟩ ⟨a', b', -, -, he, rfl⟩
    cases he
    exact ⟨rfl, rfl⟩

theorem markWords_skip (h : ∀ b rest, s = b :: rest →
    (c.isLower = true ∨ isDigit c = true) → b.isUpper = false) :
    markWords (c :: s) = c :: markWords s := by
  cases s with
  | nil => rfl
  | cons b s =>
    rw [markWords_cons, if_neg]
    intro hc
    rw [Bool.and_eq_true, Bool.or_eq_true] at hc
    rw [h b s rfl hc.1] at hc
    cases hc.2

theorem markWords_hit (h : WordEnds s r rest) : markWords s = r ++ markWords rest := by
  obtain ⟨a, b, ha, hb, rfl, rfl⟩ := h
  have hmark : ((a.isLower || isDigit a) && b.isUpper) = true := by
    rw [Bool.and_eq_true, Bool.or_eq_true]
    exact ⟨ha, hb⟩
  have hnext : markWords (b :: rest) = b :: markWords rest := by
    refine markWords_skip fun _ _ _ hsmall => ?_
    rw [isLower_of_isUpper hb, isDigit_of_capital (.inl hb), or_self] at hsmall
    cases hsmall
  rw [markWords_cons, if_pos hmark, hnext]
  rfl

theorem replaced_markWords (s : List Rune) : Replaced WordEnds s (markWords s) := by
  refine replaced_of_steps wordEnds_definite rfl markWords_hit (fun h => ?_) s
  refine markWords_skip fun b rest he hc => Bool.eq_false_iff.2 fun hb => ?_
  exact h _ _ ⟨_, b, hc, hb, by rw [he], rfl⟩

theorem span_capitals {run : List Rune} {b l : Rune} (hrun : ∀ c ∈ run, c.isUpper = true)
    (hb : b.isUpper = true) (hl : l.isLower = true) (rest : List Rune) :
    (run ++ b :: l :: rest).takeWhile Rune.isUpper = run ++ [b] ∧
      (run ++ b :: l :: rest).dropWhile Rune.isUpper = l :: rest := by
  have hnot : ¬l.isUpper = true := Bool.eq_false_iff.1 (isUpper_of_isLower hl)
  rw [List.takeWhile_append_of_pos hrun, List.dropWhile_append_of_pos hrun,
    List.takeWhile_cons_of_pos hb, List.dropWhile_cons_of_pos hb, List.takeWhile_cons_of_neg hnot,
    List.dropWhile_cons_of_neg hnot]
  exact ⟨rfl, rfl⟩

theorem acronymEnds_definite : AcronymEnds.Definite where
  shorter := by
    rintro s r rest ⟨run, b, l, -, -, -, -, rfl, -⟩
    simp only [List.length_append, List.length_cons]
    omega
  unique := by
    rintro s r rest r' rest' ⟨run, b, l, -, hrun, hb, hl, rfl, rfl⟩
      ⟨run', b', l', -, hrun', hb', hl', he, rfl⟩
    obtain ⟨htake, hdrop⟩ := span_capitals hrun hb hl rest
    obtain ⟨htake', hdrop'⟩ := span_capitals hrun' hb' hl' rest'
    rw [he, htake'] at htake
    rw [he, hdrop'] at hdrop
    obtain ⟨rfl, hlast⟩ := List.append_inj' htake rfl
    cases hlast
    cases hdrop
    exact ⟨rfl, rfl⟩

theorem markAcronyms_skip (h : ∀ b l rest, s = b :: l :: rest → c.isUpper = true →
    b.isUpper = true → l.isLower = false) : markAcronyms (c :: s) = c :: markAcronyms s := by
  match s with
  | [] => rfl
  | [b] => rfl
  | b :: l :: rest =>
    rw [markAcronyms, if_neg]
    intro hc
    rw [Bool.and_eq_true, Bool.and_eq_true] at hc
    rw [h b l rest rfl hc.1.1 hc.1.2] at hc
    cases hc.2

theorem markAcronyms_hit (h : AcronymEnds s r rest) : markAcronyms s = r ++ markAcronyms rest := by
  obtain ⟨run, b, l, hne, hrun, hb, hl, rfl, rfl⟩ := h
  have hnot : l.isUpper = false := isUpper_of_isLower hl
  induction run with
  | nil => exact absurd rfl hne
  | cons c run ih =>
    obtain ⟨hc, hrun⟩ := List.forall_mem_cons.1 hrun
    cases run with
    | nil =>
      have hlast : markAcronyms (b :: l :: rest) = b :: markAcronyms (l :: rest) := by
        refine markAcronyms_skip fun d _ _ he _ hd => ?_
        rw [← (List.cons.inj he).1, hnot] at hd
        cases hd
      have hsmall : markAcronyms (l :: rest) = l :: markAcronyms rest := by
        refine markAcronyms_skip fun _ _ _ _ hu _ => ?_
        rw [hnot] at hu
        cases hu
      rw [List.cons_append, List.nil_append, markAcronyms, if_pos (by rw [hc, hb, hl]; rfl), hlast,
        hsmall]
      rfl
    | cons d run =>
      -- The third character is still a capital, and so nothing is set here.
      have hskip : markAcronyms (c :: (d :: run ++ b :: l :: rest)) =
          c :: markAcronyms (d :: run ++ b :: l :: rest) := by
        refine markAcronyms_skip fun _ third _ he _ _ => isLower_of_isUpper ?_
        have hthird := (List.cons.inj he).2
        cases run with
        | nil => exact (List.cons.inj hthird).1 ▸ hb
        | cons e run =>
          exact (List.cons.inj hthird).1 ▸ hrun e (List.mem_cons_of_mem d List.mem_cons_self)
      rw [List.cons_append, hskip, ih (List.cons_ne_nil d run) hrun]
      rfl

theorem replaced_markAcronyms (s : List Rune) : Replaced AcronymEnds s (markAcronyms s) := by
  refine replaced_of_steps acronymEnds_definite rfl markAcronyms_hit (fun h => ?_) s
  refine markAcronyms_skip fun b l rest he hc hb => Bool.eq_false_iff.2 fun hl => ?_
  refine h _ rest ⟨[_], b, l, List.cons_ne_nil _ _, List.forall_mem_singleton.2 hc, hb, hl, ?_, rfl⟩
  rw [he]
  rfl

/-! ### One pass -/

/-- Whether a word starts at a place: a capital that a small letter or a digit stands before, or
one between a capital and a small letter. -/
def startsWordAt (w : List Rune) (i : Nat) : Bool :=
  decide (1 ≤ i) && w[i]?.any Rune.isUpper &&
    (w[i - 1]?.any (fun c => c.isLower || isDigit c) ||
      w[i - 1]?.any Rune.isUpper && w[i + 1]?.any Rune.isLower)

def wordsMarked (w : List Rune) : List Rune :=
  w.zipIdx.flatMap fun (c, i) => if startsWordAt w i then ['_', c] else [c]

theorem startsWordAt_append (front : List Rune) (before c : Rune) (rest : List Rune) :
    startsWordAt (front ++ before :: c :: rest) (front.length + 1) = startsWord before c rest := by
  have hat (k : Nat) : (front ++ before :: c :: rest)[front.length + k]? =
      (before :: c :: rest)[k]? := by
    rw [List.getElem?_append_right (Nat.le_add_right _ _), Nat.add_sub_cancel_left]
  have hhere : (front ++ before :: c :: rest)[front.length + 1]? = some c := hat 1
  have hbefore : (front ++ before :: c :: rest)[front.length + 1 - 1]? = some before := hat 0
  have hnext : (front ++ before :: c :: rest)[front.length + 1 + 1]? = rest[0]? := hat 2
  rw [startsWordAt, hhere, hbefore, hnext, startsWord]
  cases rest <;> rfl

theorem marked_eq_zipIdx (front : List Rune) (before : Rune) (s : List Rune) :
    ((s.zipIdx (front.length + 1)).flatMap fun (c, i) =>
      if startsWordAt (front ++ before :: s) i then [.char '_', c] else [c]) = marked before s := by
  induction s generalizing front before with
  | nil => rfl
  | cons c s ih =>
    have hrest := ih (front ++ [before]) c
    rw [List.length_append, List.length_singleton, List.append_assoc, List.singleton_append]
      at hrest
    rw [List.zipIdx_cons, List.flatMap_cons, hrest]
    dsimp only
    rw [startsWordAt_append, marked]
    split <;> rfl

theorem wordsMarked_eq (w : List Rune) : wordsMarked w = markWords (markAcronyms w) := by
  cases w with
  | nil => rfl
  | cons c s =>
    rw [markWords_markAcronyms, wordsMarked, List.zipIdx_cons, List.flatMap_cons]
    exact congrArg (c :: ·) (marked_eq_zipIdx [] c s)

/-- Both passes together mark the places where words start, all at once: whatever the passes make
of a text is the text with an underscore before each of them. -/
theorem underscore_in_one_pass (w : List Rune) :
    (∃ s, Replaced AcronymEnds w s ∧ Replaced WordEnds s (wordsMarked w)) ∧
    (∀ s t, Replaced AcronymEnds w s → Replaced WordEnds s t → t = wordsMarked w) ∧
    underscore w = lower ((wordsMarked w).map fun c => if c = .char '-' then '_' else c) := by
  have hfirst := replaced_markAcronyms w
  have hsecond := replaced_markWords (markAcronyms w)
  rw [← wordsMarked_eq] at hsecond
  refine ⟨⟨markAcronyms w, hfirst, hsecond⟩, fun s t hs ht => ?_, ?_⟩
  · obtain rfl := hs.unique acronymEnds_definite hfirst
    exact ht.unique wordEnds_definite hsecond
  · rw [wordsMarked_eq, underscore]

end Naming

end ApiPrep
