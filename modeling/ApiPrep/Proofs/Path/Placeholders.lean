import ApiPrep.Proofs.Path.Rendered
import Mathlib.Data.List.Basic

namespace ApiPrep.Path

variable {varName : List Rune → List Rune} {c : Rune} {s name rest : List Rune} {t : Template}

def occurrences (word s : List Rune) : Nat := s.tails.countP word.isPrefixOf

def opening : List Rune := "$\x7bencodeURIComponent(String(".runes

theorem occurrences_cons (word : List Rune) (c : Rune) (s : List Rune) :
    occurrences word (c :: s) = occurrences word s + if word.isPrefixOf (c :: s) then 1 else 0 := by
  rw [occurrences, List.tails, List.countP_cons, occurrences]

theorem opening_eq : opening = .char '$' :: .char '{' :: "encodeURIComponent(String(".runes := by
  decide +kernel

theorem occurrences_opening_cons (h : c ≠ .char '$' ∨ s.head? ≠ some (.char '{')) :
    occurrences opening (c :: s) = occurrences opening s := by
  have hnot : opening.isPrefixOf (c :: s) = false := by
    rw [opening_eq, Bool.eq_false_iff, Ne, List.isPrefixOf_iff_prefix]
    rintro ⟨more, hmore⟩
    obtain ⟨rfl, rfl⟩ := List.cons.inj hmore
    rcases h with h | h <;> exact h rfl
  rw [occurrences_cons, hnot, if_neg Bool.false_ne_true, Nat.add_zero]

theorem occurrences_opening_append (hs : Plain s) (hr : rest.head? ≠ some (.char '{')) :
    occurrences opening (s ++ rest) = occurrences opening rest := by
  induction s with
  | nil => rfl
  | cons c s ih =>
    obtain ⟨-, hs⟩ := plain_cons.1 hs
    have hnext : (s ++ rest).head? ≠ some (.char '{') := by
      cases s with
      | nil => exact hr
      | cons d s => exact fun h => (plain_cons.1 hs).1.1 (Option.some.inj h)
    rw [List.cons_append, occurrences_opening_cons (.inr hnext), ih hs]

theorem occurrences_opening_nil : occurrences opening [] = 0 := by decide +kernel

namespace Template

theorem opening_isPrefixOf (name rest : List Rune) :
    opening.isPrefixOf ('$' :: .char '{' :: (called name ++ rest)) = true := by
  have hassoc (before after : List Rune) :
      .char '$' :: .char '{' :: before ++ (name ++ (after ++ rest)) =
      .char '$' :: .char '{' :: (before ++ name ++ after ++ rest) := by
    simp only [List.cons_append, List.append_assoc]
  rw [List.isPrefixOf_iff_prefix, opening_eq]
  exact ⟨_, hassoc _ _⟩

/-- An expression holds the opening once, and none of it reaches into what is behind. -/
theorem occurrences_opening_called (hn : Plain name) (rest : List Rune) :
    occurrences opening ('$' :: .char '{' :: (called name ++ .char '}' :: rest)) =
      occurrences opening rest + 1 := by
  have hopen : Rune.char '{' ≠ '$' := by decide
  have hclose : Rune.char '}' ≠ '$' := by decide
  have hbrace : (.char '}' :: rest).head? ≠ some ('{') := fun h =>
    absurd (Option.some.inj h) (by decide)
  rw [occurrences_cons, opening_isPrefixOf, if_pos rfl, occurrences_opening_cons (.inl hopen),
    occurrences_opening_append (plain_called hn) hbrace, occurrences_opening_cons (.inl hclose)]

theorem occurrences_rendered (hv : ∀ name, Plain name → Plain (varName name))
    (ht : t.WellFormed) : occurrences opening (t.rendered varName) = t.parts.length := by
  obtain ⟨lead, parts⟩ := t
  induction parts generalizing lead with
  | nil =>
    have hend : ([] : List Rune).head? ≠ some (.char '{') := nofun
    rw [rendered, List.flatMap_nil, occurrences_opening_append ht.lead hend,
      occurrences_opening_nil, List.length_nil]
  | cons part parts ih =>
    obtain ⟨hl, ⟨hn, -⟩, htail⟩ := wellFormed_mk_cons.1 ht
    have hdollar (more : List Rune) : (.char '$' :: more).head? ≠ some (.char '{') :=
      fun h => absurd (Option.some.inj h) (by decide)
    rw [rendered_cons, occurrences_opening_append hl (hdollar _),
      occurrences_opening_called (hv _ hn), ih part.2 htail, List.length_cons]

theorem count_brace_of_plain (hs : Plain s) : s.count (.char '{') = 0 ∧ s.count (.char '}') = 0 :=
  ⟨List.count_eq_zero.2 fun h => (hs _ h).1 rfl, List.count_eq_zero.2 fun h => (hs _ h).2 rfl⟩

theorem count_text (ht : t.WellFormed) :
    t.text.count (.char '{') = t.parts.length ∧ t.text.count (.char '}') = t.parts.length := by
  obtain ⟨lead, parts⟩ := t
  induction parts generalizing lead with
  | nil =>
    rw [text, List.flatMap_nil, List.append_nil]
    exact count_brace_of_plain ht.lead
  | cons part parts ih =>
    obtain ⟨hl, ⟨hn, -⟩, htail⟩ := wellFormed_mk_cons.1 ht
    have hlead := count_brace_of_plain hl
    have hname := count_brace_of_plain hn
    simp [text_mk_cons, text_placed, hlead, hname, ih part.2 htail]

end Template

open Template

/-- A path keeps as many placeholders as it has: its expressions, their braces and its names are as
many as its opening braces. No variable in an expression holds what could end it. -/
theorem interpolate_counts {path out : Text} (h : interpolate path = .ok out) :
    ∃ names, placeholderNames path = .ok names ∧
      names.length = path.toList.count (.char '{') ∧
      out.toList.count (.char '{') = path.toList.count (.char '{') ∧
      out.toList.count (.char '}') = path.toList.count (.char '{') ∧
      occurrences "$\x7bencodeURIComponent(String(".runes out.toList =
        path.toList.count (.char '{') ∧
      ∀ name ∈ names, ∀ c ∈ Naming.varName name.toList, Naming.isDelimiter c = false := by
  obtain ⟨t, ⟨ht, hp⟩, rfl⟩ := interpolateWith_eq_ok_iff.1 h
  have hplain (name : List Rune) (_ : Plain name) := plain_varName name
  have hcount := count_text (wellFormed_expanded hplain ht)
  rw [text_expanded, length_parts_expanded] at hcount
  have hnames : placeholderNames path = .ok t.names := by
    rw [placeholderNames, ofPath_eq_ok_iff.2 ⟨ht, hp⟩]
    rfl
  rw [← hp, (count_text ht).1, Text.toList_ofList]
  have hexpressions := occurrences_rendered hplain ht
  refine ⟨t.names, hnames, List.length_map _, hcount.1, hcount.2, hexpressions, ?_⟩
  intro name _ c hc
  exact Naming.not_delimiter_of_mem_varName hc

theorem interpolate_counts_spaced :
    interpolate "/\x7ba b\x7d/$\x7bc/d\x7d" =
        .ok "/$\x7bencodeURIComponent(String(aB))\x7d/$$\x7bencodeURIComponent(String(cD))\x7d" ∧
      ∃ names, placeholderNames "/\x7ba b\x7d/$\x7bc/d\x7d" = .ok names ∧
        names.length = 2 ∧ ∀ name ∈ names, .char '/' ∉ Naming.varName name.toList := by
  have h : interpolate "/\x7ba b\x7d/$\x7bc/d\x7d" =
      .ok "/$\x7bencodeURIComponent(String(aB))\x7d/$$\x7bencodeURIComponent(String(cD))\x7d" := by
    decide +kernel
  obtain ⟨names, hnames, hlength, -, -, -, hclean⟩ := interpolate_counts h
  refine ⟨h, names, hnames, hlength.trans (by decide +kernel), fun name hname hc => ?_⟩
  exact absurd (hclean name hname ('/') hc) (by decide)

-- A bracket and a slash in a name do not end its expression.
example : interpolate "/\x7bid)/x\x7d" = .ok "/$\x7bencodeURIComponent(String(idX))\x7d" := by
  decide +kernel

end ApiPrep.Path
