import ApiPrep.Proofs.Path.Grammar
import Mathlib.Order.Bounds.Basic

namespace ApiPrep.Path

open Outcome (fault? fault?_map)

variable {c : Rune} {s name before rest : List Rune} {start here offset k : Nat}
variable {reason : Reason} {t : Template}

namespace Template

/-- What may not stand behind a template, with the offset of the brace that is blamed for it. -/
inductive Misfit : List Rune → Nat → Reason → Prop where
  | strayClose (rest : List Rune) : Misfit ('}' :: rest) 0 .strayClose
  | emptyName (rest : List Rune) : Misfit ('{' :: '}' :: rest) 0 .emptyName
  | nestedOpen {name : List Rune} (hn : Plain name) (rest : List Rune) :
    Misfit (.char '{' :: (name ++ .char '{' :: rest)) (name.length + 1) .nestedOpen
  | neverClosed {name : List Rune} (hn : Plain name) : Misfit ('{' :: name) 0 .neverClosed

/-! ### Failures of the scanner -/

theorem scanName_nested (hn : Plain name) :
    scanName start here (name ++ .char '{' :: rest) = .error (here + name.length, .nestedOpen) := by
  induction name generalizing here with
  | nil => rfl
  | cons c name ih =>
    obtain ⟨hc, hn⟩ := plain_cons.1 hn
    have hlen : here + 1 + name.length = here + (c :: name).length := by
      rw [List.length_cons]
      omega
    rw [List.cons_append, scanName_plain hc, ih hn, hlen]
    rfl

theorem scanName_unclosed (hn : Plain name) :
    scanName start here name = .error (start, .neverClosed) := by
  induction name generalizing here with
  | nil => rfl
  | cons c name ih =>
    obtain ⟨hc, hn⟩ := plain_cons.1 hn
    rw [scanName_plain hc, ih hn]
    rfl

theorem scan_misfit (h : Misfit s offset reason) (here : Nat) :
    scan here s = .error (here + offset, reason) := by
  cases h with
  | strayClose rest => rfl
  | emptyName rest => rfl
  | @nestedOpen name hn rest =>
    have hr : ∀ tail, name ++ .char '{' :: rest ≠ .char '}' :: tail :=
      append_ne_close hn fun _ tail h => absurd (List.cons.inj h).1 (by decide)
    have hlen : here + 1 + name.length = here + (name.length + 1) := by omega
    rw [scan_open hr, scanName_nested hn, hlen]
    rfl
  | @neverClosed name hn =>
    have hr : ∀ tail, name ≠ .char '}' :: tail := by
      rintro tail rfl
      exact (plain_cons.1 hn).1.2 rfl
    rw [scan_open hr, scanName_unclosed hn]
    rfl

theorem fault?_scan_text (ht : t.WellFormed) (here : Nat) (rest : List Rune) :
    fault? (scan here (t.text ++ rest)) = fault? (scan (here + t.text.length) rest) := by
  obtain ⟨lead, parts⟩ := t
  induction parts generalizing lead here with
  | nil => rw [text, List.flatMap_nil, List.append_nil, scan_append ht.lead, fault?_map]
  | cons part parts ih =>
    obtain ⟨hl, ⟨hn, he⟩, htail⟩ := wellFormed_mk_cons.1 ht
    have hlen : here + lead.length + (part.1.length + 2) + (text ⟨part.2, parts⟩).length =
        here + (text ⟨lead, part :: parts⟩).length := by
      simp only [text_mk_cons, text_placed, List.length_append, List.length_cons]
      omega
    rw [← hlen, ← ih _ part.2 htail, text_mk_cons, text_placed, List.append_assoc,
      List.append_assoc, List.cons_append, List.cons_append, scan_append hl, fault?_map,
      ← List.cons_append, scan_placed hn he, fault?_map]

theorem scan_text_misfit (ht : t.WellFormed) (h : Misfit s offset reason) (here : Nat) :
    scan here (t.text ++ s) = .error (here + (t.text.length + offset), reason) := by
  rw [← Outcome.fault?_eq_some_iff, fault?_scan_text ht, scan_misfit h, Nat.add_assoc]
  rfl

/-! ### Templates and misfits -/

theorem exists_plain_lead (s : List Rune) : ∃ lead rest, Plain lead ∧ lead ++ rest = s ∧
    (rest = [] ∨ ∃ tail, rest = .char '{' :: tail ∨ rest = .char '}' :: tail) := by
  induction s with
  | nil => exact ⟨[], [], plain_nil, rfl, .inl rfl⟩
  | cons c s ih =>
    obtain ⟨lead, rest, hl, rfl, hrest⟩ := ih
    by_cases hc : c ≠ .char '{' ∧ c ≠ .char '}'
    · exact ⟨c :: lead, rest, plain_cons.2 ⟨hc, hl⟩, rfl, hrest⟩
    · refine ⟨[], c :: (lead ++ rest), plain_nil, rfl, .inr ⟨lead ++ rest, ?_⟩⟩
      rw [Decidable.not_and_iff_not_or_not, Decidable.not_not, Decidable.not_not] at hc
      rcases hc with rfl | rfl
      · exact .inl rfl
      · exact .inr rfl

theorem exists_text_misfit (s : List Rune) : ∃ t : Template, t.WellFormed ∧
    (t.text = s ∨ ∃ tail offset reason, Misfit tail offset reason ∧ t.text ++ tail = s) := by
  obtain ⟨lead, rest, hl, rfl, hrest⟩ := exists_plain_lead s
  have hlead : WellFormed ⟨lead, []⟩ := ⟨hl, List.forall_mem_nil _, List.forall_mem_nil _⟩
  have htext : text ⟨lead, []⟩ = lead := List.append_nil lead
  rcases hrest with rfl | ⟨tail, rfl | rfl⟩
  · exact ⟨_, hlead, .inl (htext.trans (List.append_nil lead).symm)⟩
  · obtain ⟨name, rest, hn, rfl, hrest⟩ := exists_plain_lead tail
    rcases hrest with rfl | ⟨tail, rfl | rfl⟩
    · refine ⟨_, hlead, .inr ⟨_, _, _, .neverClosed hn, ?_⟩⟩
      rw [htext, List.append_nil]
    · exact ⟨_, hlead, .inr ⟨_, _, _, .nestedOpen hn tail, by rw [htext]⟩⟩
    · by_cases he : name = []
      · rw [he]
        exact ⟨_, hlead, .inr ⟨_, _, _, .emptyName tail, by rw [htext]; rfl⟩⟩
      · -- The placeholder is whole, and the text behind it is shorter.
        obtain ⟨t, ht, hs⟩ := exists_text_misfit tail
        refine ⟨⟨lead, (name, t.lead) :: t.parts⟩, wellFormed_mk_cons.2 ⟨hl, ⟨hn, he⟩, ht⟩, ?_⟩
        have hwhole : text ⟨lead, (name, t.lead) :: t.parts⟩ =
            lead ++ (.char '{' :: (name ++ .char '}' :: t.text)) := by
          rw [text_mk_cons, text_placed]
          rfl
        rw [hwhole]
        rcases hs with rfl | ⟨rest, offset, reason, hm, rfl⟩
        · exact .inl rfl
        · refine .inr ⟨rest, offset, reason, hm, ?_⟩
          simp only [List.append_assoc, List.cons_append]
  · exact ⟨_, hlead, .inr ⟨_, _, _, .strayClose tail, by rw [htext]⟩⟩
termination_by s.length
decreasing_by
  subst_vars
  simp only [List.length_append, List.length_cons]
  omega

/-- A path is refused iff a misfit stands in it behind a template, with the place and the reason
that belong to the misfit. -/
theorem ofPath_eq_error_iff {path : Text} {f : Fault} :
    ofPath path = .error f ↔ f.path = path ∧ ∃ (t : Template) (tail : List Rune) (offset : Nat),
      t.WellFormed ∧ Misfit tail offset f.reason ∧ t.text ++ tail = path.toList ∧
        f.position = t.text.length + offset := by
  rw [ofPath]
  constructor
  · intro h
    obtain ⟨t, ht, hs | ⟨tail, offset, reason, hm, hs⟩⟩ := exists_text_misfit path.toList
    · rw [← hs, scan_complete ht] at h
      cases h
    · rw [← hs, scan_text_misfit ht hm, Nat.zero_add] at h
      cases h
      exact ⟨rfl, t, tail, offset, ht, hm, hs, rfl⟩
  · obtain ⟨_, position, reason⟩ := f
    rintro ⟨rfl, t, tail, offset, ht, hm, hs, rfl⟩
    rw [← hs, scan_text_misfit ht hm, Nat.zero_add]

/-! ### Beginnings of templates -/

/-- Whether a template can start with the text. -/
def Begins (s : List Rune) : Prop := ∃ t : Template, t.WellFormed ∧ s <+: t.text

def EndsOutside (s : List Rune) : Prop := ∃ t : Template, t.WellFormed ∧ t.text = s

def EndsInside (name s : List Rune) : Prop :=
  ∃ t : Template, t.WellFormed ∧ Plain name ∧ t.text ++ .char '{' :: name = s

theorem Begins.of_prefix (hs : Begins s) (h : before <+: s) : Begins before := by
  obtain ⟨t, ht, hst⟩ := hs
  exact ⟨t, ht, h.trans hst⟩

theorem EndsOutside.begins (h : EndsOutside s) : Begins s := by
  obtain ⟨t, ht, rfl⟩ := h
  exact ⟨t, ht, List.prefix_rfl⟩

theorem EndsInside.begins (h : EndsInside name s) : Begins s := by
  obtain ⟨t, ht, hn, rfl⟩ := h
  have hname : Plain (name ++ [.char '_']) :=
    List.forall_mem_append.2 ⟨hn, List.forall_mem_singleton.2 (by decide)⟩
  refine ⟨⟨t.lead, t.parts ++ [(name ++ [.char '_'], [])]⟩, ⟨ht.lead, ?_, ?_⟩,
    [.char '_', .char '}'], ?_⟩
  · refine List.forall_mem_append.2 ⟨ht.names, List.forall_mem_singleton.2 ⟨hname, ?_⟩⟩
    exact List.append_ne_nil_of_right_ne_nil name (List.cons_ne_nil _ _)
  · exact List.forall_mem_append.2 ⟨ht.literals, List.forall_mem_singleton.2 plain_nil⟩
  · simp only [text, List.flatMap_append, List.flatMap_cons, List.flatMap_nil, List.append_assoc,
      List.cons_append, List.nil_append]

theorem fault?_of_inside (h : EndsInside name s) :
    ∃ t : Template, t.text ++ .char '{' :: name = s ∧
      fault? (scan 0 s) = some (t.text.length, .neverClosed) := by
  obtain ⟨t, ht, hn, rfl⟩ := h
  refine ⟨t, rfl, ?_⟩
  rw [scan_text_misfit ht (.neverClosed hn), Nat.zero_add]
  rfl

theorem EndsOutside.not_inside (h : EndsOutside s) : ¬EndsInside name s := by
  intro hi
  obtain ⟨u, -, hu⟩ := fault?_of_inside hi
  obtain ⟨t, ht, rfl⟩ := h
  rw [scan_complete ht] at hu
  cases hu

theorem EndsInside.name_unique {name' : List Rune} (h : EndsInside name s)
    (h' : EndsInside name' s) : name' = name := by
  obtain ⟨t, rfl, ht⟩ := fault?_of_inside h
  obtain ⟨u, hs, hu⟩ := fault?_of_inside h'
  rw [ht] at hu
  have hlen : u.text.length = t.text.length := (congrArg Prod.fst (Option.some.inj hu)).symm
  exact (List.cons.inj (List.append_inj hs hlen).2).2

/-- What is written behind a misfit does not mend it, unless it is a placeholder that may still be
closed. -/
theorem Misfit.append (h : Misfit s offset reason) (hr : reason ≠ .neverClosed)
    (more : List Rune) : Misfit (s ++ more) offset reason := by
  cases h with
  | strayClose rest => exact .strayClose (rest ++ more)
  | emptyName rest => exact .emptyName (rest ++ more)
  | nestedOpen hn rest =>
    rw [List.cons_append, List.append_assoc, List.cons_append]
    exact .nestedOpen hn (rest ++ more)
  | neverClosed => exact absurd rfl hr

theorem not_begins_of_misfit (ht : t.WellFormed) (h : Misfit s offset reason)
    (hr : reason ≠ .neverClosed) : ¬Begins (t.text ++ s) := by
  rintro ⟨u, hu, more, hmore⟩
  have hscan := scan_text_misfit ht (h.append hr more) 0
  rw [← List.append_assoc, hmore, scan_complete hu] at hscan
  cases hscan

/-- The length of the shortest beginning of a text with which no template can start. -/
def FirstFault (s : List Rune) (k : Nat) : Prop := IsLeast {k | k ≤ s.length ∧ ¬Begins (s.take k)} k

theorem firstFault_iff (hb : Begins before) (hc : ¬Begins (before ++ [c])) :
    FirstFault (before ++ c :: rest) k ↔ k = before.length + 1 := by
  have htake : (before ++ c :: rest).take (before.length + 1) = before ++ [c] := by
    rw [List.take_length_add_append]
    rfl
  have hleast : FirstFault (before ++ c :: rest) (before.length + 1) := by
    refine ⟨⟨?_, by rwa [htake]⟩, fun j hj => ?_⟩
    · rw [List.length_append, List.length_cons]
      omega
    · by_contra hlt
      refine hj.2 (hb.of_prefix ?_)
      rw [List.take_append_of_le_length (by omega)]
      exact List.take_prefix j before
  exact ⟨fun h => h.unique hleast, fun h => h ▸ hleast⟩

theorem not_firstFault_of_begins (h : Begins s) : ¬FirstFault s k := by
  rintro ⟨⟨-, hk⟩, -⟩
  exact hk (h.of_prefix (List.take_prefix k s))

/-- The brace `c`, with which no template goes on behind `before`, and the place that is blamed: its
own, or that of the brace before it where it closes an empty placeholder. -/
structure Blames (before : List Rune) (c : Rune) (position : Nat) : Prop where
  somewhere : EndsOutside before ∨ ∃ name, EndsInside name before
  outside : EndsOutside before → c = '}' ∧ position = before.length
  inside : ∀ name, EndsInside name before →
    c = '{' ∧ position = before.length ∨ c = '}' ∧ name = [] ∧ position + 1 = before.length

theorem Blames.begins {position : Nat} (h : Blames before c position) : Begins before := by
  rcases h.somewhere with ho | ⟨name, hi⟩
  · exact ho.begins
  · exact hi.begins

theorem exists_blames (ht : t.WellFormed) (h : Misfit s offset reason)
    (hr : reason ≠ .neverClosed) :
    ∃ before c after, before ++ c :: after = t.text ++ s ∧
      Blames before c (t.text.length + offset) ∧ ¬Begins (before ++ [c]) := by
  cases h with
  | strayClose rest =>
    have hout : EndsOutside t.text := ⟨t, ht, rfl⟩
    refine ⟨t.text, '}', rest, rfl, ⟨.inl hout, fun _ => ⟨rfl, rfl⟩, fun name hi => ?_⟩, ?_⟩
    · exact absurd hi hout.not_inside
    · exact not_begins_of_misfit ht (.strayClose []) hr
  | emptyName rest =>
    have hin : EndsInside [] (t.text ++ [.char '{']) := ⟨t, ht, plain_nil, rfl⟩
    refine ⟨t.text ++ [.char '{'], '}', rest, List.append_cons .. |>.symm,
      ⟨.inr ⟨[], hin⟩, ?_, ?_⟩, ?_⟩
    · intro hout
      exact absurd hin hout.not_inside
    · intro name hi
      exact .inr ⟨rfl, hin.name_unique hi, by rw [List.length_append]; rfl⟩
    · rw [List.append_assoc]
      exact not_begins_of_misfit ht (.emptyName []) hr
  | @nestedOpen name hn rest =>
    have hin : EndsInside name (t.text ++ .char '{' :: name) := ⟨t, ht, hn, rfl⟩
    have hassoc (more : List Rune) :
        t.text ++ .char '{' :: name ++ .char '{' :: more =
          t.text ++ .char '{' :: (name ++ .char '{' :: more) := by
      rw [List.append_assoc, List.cons_append]
    refine ⟨t.text ++ .char '{' :: name, .char '{', rest, hassoc rest,
      ⟨.inr ⟨name, hin⟩, ?_, ?_⟩, ?_⟩
    · intro hout
      exact absurd hin hout.not_inside
    · intro _ _
      exact .inl ⟨rfl, by rw [List.length_append, List.length_cons]⟩
    · rw [hassoc]
      exact not_begins_of_misfit ht (.nestedOpen hn []) hr
  | neverClosed => exact absurd rfl hr

theorem exists_first_blamed (ht : t.WellFormed) (h : Misfit s offset reason)
    (hr : reason ≠ .neverClosed) :
    ∃ before c after, before ++ c :: after = t.text ++ s ∧
      Blames before c (t.text.length + offset) ∧
      ∀ k, FirstFault (t.text ++ s) k ↔ k = before.length + 1 := by
  obtain ⟨before, c, after, he, hb, hc⟩ := exists_blames ht h hr
  refine ⟨before, c, after, he, hb, fun k => ?_⟩
  rw [← he, firstFault_iff hb.begins hc]

theorem Misfit.brace_at (h : Misfit s offset reason) :
    s[offset]? = some (.char '{') ∨ s[offset]? = some (.char '}') := by
  cases h with
  | strayClose rest => exact .inr rfl
  | emptyName rest => exact .inl rfl
  | nestedOpen hn rest =>
    refine .inl ?_
    rw [List.getElem?_cons_succ, List.getElem?_append_right (Nat.le_refl _), Nat.sub_self]
    rfl
  | neverClosed => exact .inl rfl

theorem brace_at_of_ofPath {path : Text} {f : Fault} (h : ofPath path = .error f) :
    f.position < path.length ∧
      (path.toList[f.position]? = some (.char '{') ∨
        path.toList[f.position]? = some (.char '}')) := by
  obtain ⟨-, t, tail, offset, -, hm, hs, hp⟩ := ofPath_eq_error_iff.1 h
  have hat : path.toList[f.position]? = tail[offset]? := by
    rw [← hs, hp, List.getElem?_append_right (Nat.le_add_right _ _), Nat.add_sub_cancel_left]
  have hbrace := hm.brace_at
  rw [← hat] at hbrace
  refine ⟨?_, hbrace⟩
  rw [← Text.length_toList]
  by_contra hlt
  rw [List.getElem?_eq_none (Nat.le_of_not_lt hlt)] at hbrace
  exact hbrace.elim nofun nofun

end Template

open Template

/-- A path is refused at its first fault, whatever is done to names. Where some beginning of it
starts no template, the shortest such beginning ends in a brace, and that brace is blamed, or the
one before it if the two make an empty placeholder. All other refused paths end in a placeholder,
of which the opening brace is blamed. -/
theorem interpolateWith_fault_first {varName : List Rune → List Rune} {path : Text} {f : Fault}
    (h : interpolateWith varName path = .error f) :
    (∀ other, interpolateWith other path = .error f) ∧
    (f.position < path.length ∧
      (path.toList[f.position]? = some (.char '{') ∨ path.toList[f.position]? = some (.char '}'))) ∧
    (∀ k, FirstFault path.toList k → ∃ before c after,
      before ++ c :: after = path.toList ∧ k = before.length + 1 ∧ Blames before c f.position) ∧
    ((∀ k, ¬FirstFault path.toList k) → ∃ (t : Template) (name : List Rune), t.WellFormed ∧
      Plain name ∧ t.text ++ .char '{' :: name = path.toList ∧ f.position = t.text.length) := by
  have hfault : ofPath path = .error f := by
    rw [interpolateWith] at h
    exact (Outcome.bind_eq_error_iff_left fun t => ⟨_, rfl⟩).1 h
  obtain ⟨-, t, tail, offset, ht, hm, hs, hp⟩ := ofPath_eq_error_iff.1 hfault
  refine ⟨fun other => ?_, brace_at_of_ofPath hfault, fun k hk => ?_, fun hk => ?_⟩
  · rw [interpolateWith, hfault]
    rfl
  · -- A placeholder that is open at the end may still be closed, and so is no first fault.
    have hr : f.reason ≠ .neverClosed := by
      intro hr
      rw [hr] at hm
      cases hm with
      | neverClosed hn => exact not_firstFault_of_begins (EndsInside.begins ⟨t, ht, hn, hs⟩) hk
    obtain ⟨before, c, after, he, hb, hfirst⟩ := exists_first_blamed ht hm hr
    rw [hs] at he hfirst
    exact ⟨before, c, after, he, (hfirst k).1 hk, hp ▸ hb⟩
  · by_cases hr : f.reason = .neverClosed
    · rw [hr] at hm
      cases hm with
      | neverClosed hn => exact ⟨t, _, ht, hn, hs, hp⟩
    · obtain ⟨before, c, after, -, -, hfirst⟩ := exists_first_blamed ht hm hr
      rw [hs] at hfirst
      exact absurd ((hfirst _).2 rfl) (hk _)

theorem interpolateWith_fault_first_nested :
    interpolateWith id "\x7ba\x7d\x7bb\x7bc" =
        .error ⟨"\x7ba\x7d\x7bb\x7bc", 5, .nestedOpen⟩ ∧
      ∀ k, FirstFault "\x7ba\x7d\x7bb\x7bc".runes k → k = 6 := by
  have h : interpolateWith id "\x7ba\x7d\x7bb\x7bc" =
      .error ⟨"\x7ba\x7d\x7bb\x7bc", 5, .nestedOpen⟩ := by decide +kernel
  refine ⟨h, fun k hk => ?_⟩
  obtain ⟨before, c, after, he, rfl, hb⟩ := (interpolateWith_fault_first h).2.2.1 k hk
  rcases hb.somewhere with hout | ⟨name, hin⟩
  · rw [← (hb.outside hout).2]
  · rcases hb.inside name hin with ⟨-, hp⟩ | ⟨rfl, -, hp⟩
    · rw [← hp]
    · have he : before ++ .char '}' :: after = "\x7ba\x7d\x7bb\x7b".runes ++ "c".runes := he
      exact absurd (List.cons.inj (List.append_inj he hp.symm).2).1 (by decide)

end ApiPrep.Path
