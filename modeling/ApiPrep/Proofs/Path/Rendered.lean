import ApiPrep.Proofs.Naming.Variable
import ApiPrep.Proofs.Path.Grammar

namespace ApiPrep.Path

variable {varName : List Rune → List Rune} {name lead : List Rune} {t u : Template}
variable {part : List Rune × List Rune} {parts : List (List Rune × List Rune)}

namespace Template

def literals (t : Template) : List (List Rune) := t.lead :: t.parts.map Prod.snd

def called (name : List Rune) : List Rune :=
  "encodeURIComponent(String(".runes ++ name ++ "))".runes

/-- The template from `lead` on whose text is that of the given one with expressions. The dollar of
an expression belongs to the literal before it. -/
def expandedFrom (varName : List Rune → List Rune) :
    (lead : List Rune) → List (List Rune × List Rune) → Template
  | lead, [] => ⟨lead, []⟩
  | lead, part :: parts =>
    ⟨lead ++ [.char '$'],
      (placed (called (varName part.1)) (expandedFrom varName part.2 parts)).parts⟩

def expanded (varName : List Rune → List Rune) (t : Template) : Template :=
  expandedFrom varName t.lead t.parts

theorem expanded_cons :
    expanded varName ⟨lead, part :: parts⟩ =
      ⟨lead ++ [.char '$'],
        (placed (called (varName part.1)) (expanded varName ⟨part.2, parts⟩)).parts⟩ :=
  rfl

theorem interpolation_eq (name : List Rune) :
    interpolation name = .char '$' :: .char '{' :: called name ++ [.char '}'] := by
  have hopen : "$\x7bencodeURIComponent(String(".runes =
      .char '$' :: .char '{' :: "encodeURIComponent(String(".runes := by decide +kernel
  have hclose : "))\x7d".runes = "))".runes ++ [.char '}'] := by decide +kernel
  have hassoc (before after : List Rune) :
      .char '$' :: .char '{' :: before ++ name ++ (after ++ [.char '}']) =
      .char '$' :: .char '{' :: (before ++ name ++ after) ++ [.char '}'] := by
    simp only [List.cons_append, List.append_assoc]
  exact (congrArg₂ (· ++ name ++ ·) hopen hclose).trans (hassoc _ _)

theorem rendered_cons :
    rendered varName ⟨lead, part :: parts⟩ =
      lead ++ .char '$' :: .char '{' ::
        (called (varName part.1) ++ .char '}' :: rendered varName ⟨part.2, parts⟩) := by
  simp only [rendered, List.flatMap_cons, interpolation_eq, List.cons_append, List.append_assoc,
    List.nil_append]

theorem text_expanded (varName : List Rune → List Rune) (t : Template) :
    (t.expanded varName).text = t.rendered varName := by
  obtain ⟨lead, parts⟩ := t
  induction parts generalizing lead with
  | nil => rfl
  | cons part parts ih =>
    rw [expanded_cons, rendered_cons, ← ih, placed, text_mk_cons, text_placed, List.append_assoc]
    rfl

theorem plain_called (h : Plain name) : Plain (called name) := by
  have hopen : Plain "encodeURIComponent(String(".runes := by decide +kernel
  have hclose : Plain "))".runes := by decide +kernel
  exact plain_append.2 ⟨plain_append.2 ⟨hopen, h⟩, hclose⟩

theorem called_ne_nil (name : List Rune) : called name ≠ [] :=
  List.append_ne_nil_of_right_ne_nil _ (by decide)

theorem called_inj {name' : List Rune} (h : called name = called name') : name = name' :=
  List.append_cancel_left (List.append_cancel_right h)

theorem wellFormed_expanded (hv : ∀ name, Plain name → Plain (varName name)) (ht : t.WellFormed) :
    (t.expanded varName).WellFormed := by
  obtain ⟨lead, parts⟩ := t
  induction parts generalizing lead with
  | nil => exact ht
  | cons part parts ih =>
    obtain ⟨hl, ⟨hn, -⟩, htail⟩ := wellFormed_mk_cons.1 ht
    have hlead : Plain (lead ++ [.char '$']) :=
      plain_append.2 ⟨hl, List.forall_mem_singleton.2 (by decide)⟩
    exact wellFormed_mk_cons.2
      ⟨hlead, ⟨plain_called (hv _ hn), called_ne_nil _⟩, ih part.2 htail⟩

theorem length_parts_expanded (varName : List Rune → List Rune) (t : Template) :
    (t.expanded varName).parts.length = t.parts.length := by
  obtain ⟨lead, parts⟩ := t
  induction parts generalizing lead with
  | nil => rfl
  | cons part parts ih => exact congrArg (· + 1) (ih part.2)

theorem parts_placed_inj {name' : List Rune} (h : (placed name t).parts = (placed name' u).parts) :
    name = name' ∧ t = u := by
  cases t
  cases u
  cases h
  exact ⟨rfl, rfl⟩

theorem literals_of_expanded (h : t.expanded varName = u.expanded varName) :
    t.literals = u.literals ∧ t.parts.map (varName ·.1) = u.parts.map (varName ·.1) := by
  obtain ⟨lead, parts⟩ := t
  obtain ⟨lead', parts'⟩ := u
  have hlen := congrArg (List.length ·.parts) h
  simp only [length_parts_expanded] at hlen
  induction parts generalizing lead lead' parts' with
  | nil =>
    obtain rfl := List.length_eq_zero_iff.1 hlen.symm
    exact ⟨congrArg literals h, rfl⟩
  | cons part parts ih =>
    obtain ⟨part', parts', rfl⟩ := List.exists_cons_of_length_eq_add_one hlen.symm
    rw [expanded_cons, expanded_cons] at h
    obtain ⟨hlead, hparts⟩ := Template.mk.inj h
    obtain ⟨hname, hrest⟩ := parts_placed_inj hparts
    obtain ⟨hliterals, hnames⟩ := ih part.2 part'.2 parts' hrest (Nat.succ.inj hlen)
    have hlead := List.append_cancel_right hlead
    have hname := called_inj hname
    rw [literals] at hliterals
    simp only [literals, List.map_cons, hlead, hliterals, hname, hnames, and_self]

/-- Each reading of the same path puts another dollar before its first placeholder. -/
theorem expanded_eq_self_iff : t.expanded varName = t ↔ t.parts = [] := by
  obtain ⟨lead, parts⟩ := t
  cases parts with
  | nil => exact iff_of_true rfl rfl
  | cons part parts =>
    refine iff_of_false (fun h => ?_) (List.cons_ne_nil _ _)
    have hlead : lead ++ [.char '$'] = lead := congrArg Template.lead h
    exact absurd (List.append_right_eq_self.1 hlead) (List.cons_ne_nil _ _)

theorem expanded_twice_iff (varName : List Rune → List Rune) (t : Template) :
    (t.expanded varName).expanded varName = t.expanded varName ↔ t.parts = [] := by
  rw [expanded_eq_self_iff, ← List.length_eq_zero_iff, length_parts_expanded,
    List.length_eq_zero_iff]

theorem eq_of_literals (hl : t.literals = u.literals)
    (hn : t.parts.map Prod.fst = u.parts.map Prod.fst) : t = u := by
  obtain ⟨lead, parts⟩ := t
  obtain ⟨lead', parts'⟩ := u
  obtain ⟨rfl, hl⟩ := List.cons.inj hl
  have hparts : parts.unzip = parts'.unzip := by
    rw [List.unzip_eq_map, List.unzip_eq_map]
    exact congr (congrArg Prod.mk hn) hl
  rw [← List.zip_unzip parts, hparts, List.zip_unzip]

end Template

open Template

theorem plain_varName (name : List Rune) : Plain (Naming.varName name) := by
  intro c hc
  have hdelimiter := Naming.not_delimiter_of_mem_varName hc
  constructor
  · rintro rfl
    exact absurd hdelimiter (by decide)
  · rintro rfl
    exact absurd hdelimiter (by decide)

theorem interpolateWith_text {path : Text} (ht : t.WellFormed) (hp : t.text = path.toList) :
    interpolateWith varName path = .ok (Text.ofList (t.expanded varName).text) :=
  interpolateWith_eq_ok_iff.2 ⟨t, ⟨ht, hp⟩, congrArg Text.ofList (text_expanded varName t).symm⟩

/-- From a path with expressions, what stood between the placeholders can be told and so can their
variables, as long as these hold no braces. Where names are left as they are, two paths with the
same expressions are one. -/
theorem interpolateWith_unambiguous (hv : ∀ name, Plain name → Plain (varName name))
    {p q : Text} (hp : t.WellFormed ∧ t.text = p.toList) (hq : u.WellFormed ∧ u.text = q.toList)
    (h : interpolateWith varName p = interpolateWith varName q) :
    (t.literals = u.literals ∧ t.parts.map (varName ·.1) = u.parts.map (varName ·.1)) ∧
      (varName = id → p = q) := by
  rw [interpolateWith_text hp.1 hp.2, interpolateWith_text hq.1 hq.2] at h
  have htext := Text.ofList_inj.1 (Except.ok.inj h)
  have hexpanded : t.expanded varName = u.expanded varName :=
    (wellFormed_expanded hv hq.1).text_inj (wellFormed_expanded hv hp.1) htext
  obtain ⟨hliterals, hnames⟩ := literals_of_expanded hexpanded
  refine ⟨⟨hliterals, hnames⟩, ?_⟩
  rintro rfl
  have he : t = u := eq_of_literals hliterals hnames
  rw [← Text.toList_inj, ← hp.2, ← hq.2, he]

theorem interpolateWith_unambiguous_dashed :
    (WellFormed ⟨['$'], [(['x', '-', 'y'], [')', ')'])]⟩ ∧
      WellFormed ⟨['$'], [(['x', 'Y'], [')', ')'])]⟩) ∧
    interpolate "$\x7bx-y\x7d))" = interpolate "$\x7bxY\x7d))" ∧
    Naming.varName ['x', '-', 'y'] = Naming.varName ['x', 'Y'] := by
  have ht : WellFormed ⟨['$'], [(['x', '-', 'y'], [')', ')'])]⟩ := by decide
  have hu : WellFormed ⟨['$'], [(['x', 'Y'], [')', ')'])]⟩ := by decide
  have h : interpolate "$\x7bx-y\x7d))" = interpolate "$\x7bxY\x7d))" := by decide +kernel
  have hsame := interpolateWith_unambiguous (fun name _ => plain_varName name)
    ⟨ht, by decide +kernel⟩ ⟨hu, by decide +kernel⟩ h
  exact ⟨⟨ht, hu⟩, h, (List.cons.inj hsame.1.2).1⟩

/-! ### Paths that are read again -/

/-- A path with expressions is a template with as many placeholders, so that nothing keeps it from
being read again. This leaves it as it is only if there are no placeholders, and then the first
reading has left the path as it is too. -/
theorem interpolate_again {p : Text} (ht : t.WellFormed) (hp : t.text = p.toList) :
    ∃ (out again : Text) (u : Template), interpolate p = .ok out ∧
      (u.WellFormed ∧ u.text = out.toList) ∧ u.parts.length = t.parts.length ∧
      interpolate out = .ok again ∧ (again = out ↔ t.parts = []) ∧
      (t.parts = [] → out = p ∧ again = p) := by
  have hplain (name : List Rune) (_ : Plain name) := plain_varName name
  have hwf := wellFormed_expanded hplain ht
  have htext := (Text.toList_ofList (l := (t.expanded Naming.varName).text)).symm
  have hagain : Text.ofList ((t.expanded Naming.varName).expanded Naming.varName).text =
      Text.ofList (t.expanded Naming.varName).text ↔ t.parts = [] := by
    rw [← expanded_twice_iff Naming.varName t]
    constructor
    · intro h
      exact hwf.text_inj (wellFormed_expanded hplain hwf) (Text.ofList_inj.1 h)
    · intro h
      rw [h]
  refine ⟨_, _, _, interpolateWith_text ht hp, ⟨hwf, htext⟩, length_parts_expanded _ t,
    interpolateWith_text hwf htext, hagain, fun hparts => ?_⟩
  have hout : Text.ofList (t.expanded Naming.varName).text = p := by
    rw [expanded_eq_self_iff.2 hparts, hp, Text.ofList_toList]
  exact ⟨hout, (hagain.2 hparts).trans hout⟩

theorem interpolate_again_spaced :
    WellFormed ⟨['/'], [(['a', ' ', 'b'], [])]⟩ ∧
    ∃ out again, interpolate "/\x7ba b\x7d" = .ok out ∧ interpolate out = .ok again ∧
      again ≠ out := by
  have ht : WellFormed ⟨['/'], [(['a', ' ', 'b'], [])]⟩ := by decide
  have htext : text ⟨['/'], [(['a', ' ', 'b'], [])]⟩ = "/\x7ba b\x7d".runes := by decide +kernel
  obtain ⟨out, again, -, hout, -, -, hagain, hsame, -⟩ := interpolate_again ht htext
  exact ⟨ht, out, again, hout, hagain, fun h => List.cons_ne_nil _ _ (hsame.1 h)⟩

end ApiPrep.Path
