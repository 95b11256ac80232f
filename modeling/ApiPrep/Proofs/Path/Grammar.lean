import ApiPrep.Path.Template
import ApiPrep.Proofs.Outcome

namespace ApiPrep.Path

variable {c : Rune} {s name rest : List Rune} {start here : Nat} {t u : Template}

def Plain (s : List Rune) : Prop := ∀ c ∈ s, c ≠ '{' ∧ c ≠ '}'

-- Not by inference, which may settle for a search through all characters.
instance (s : List Rune) : Decidable (Plain s) := List.decidableBAll _ s

theorem plain_nil : Plain [] := List.forall_mem_nil _

theorem plain_cons : Plain (c :: s) ↔ (c ≠ '{' ∧ c ≠ '}') ∧ Plain s := List.forall_mem_cons

theorem plain_append : Plain (s ++ rest) ↔ Plain s ∧ Plain rest := List.forall_mem_append

namespace Template

/-- Neither literals nor names hold braces, and no name is empty. -/
structure WellFormed (t : Template) : Prop where
  lead : Plain t.lead
  names : ∀ part ∈ t.parts, Plain part.1 ∧ part.1 ≠ []
  literals : ∀ part ∈ t.parts, Plain part.2

instance (t : Template) : Decidable t.WellFormed :=
  decidable_of_iff
    (Plain t.lead ∧ (∀ part ∈ t.parts, Plain part.1 ∧ part.1 ≠ []) ∧ ∀ part ∈ t.parts, Plain part.2)
    ⟨fun h => ⟨h.1, h.2.1, h.2.2⟩, fun h => ⟨h.lead, h.names, h.literals⟩⟩

def text (t : Template) : List Rune :=
  t.lead ++ t.parts.flatMap fun part => .char '{' :: part.1 ++ .char '}' :: part.2

def placed (name : List Rune) (t : Template) : Template := ⟨[], (name, t.lead) :: t.parts⟩

theorem text_cons (c : Rune) (t : Template) : (t.cons c).text = c :: t.text := rfl

theorem text_placed (name : List Rune) (t : Template) :
    (t.placed name).text = .char '{' :: name ++ .char '}' :: t.text := by
  simp only [placed, text, List.flatMap_cons, List.nil_append, List.cons_append, List.append_assoc]

theorem text_mk_cons (lead : List Rune) (part : List Rune × List Rune)
    (parts : List (List Rune × List Rune)) :
    text ⟨lead, part :: parts⟩ = lead ++ (placed part.1 ⟨part.2, parts⟩).text := by
  rw [text_placed]
  simp only [text, List.flatMap_cons, List.cons_append, List.append_assoc]

theorem wellFormed_empty : WellFormed ⟨[], []⟩ :=
  ⟨plain_nil, List.forall_mem_nil _, List.forall_mem_nil _⟩

theorem wellFormed_cons (hc : c ≠ '{' ∧ c ≠ '}') (ht : t.WellFormed) : (t.cons c).WellFormed :=
  ⟨plain_cons.2 ⟨hc, ht.lead⟩, ht.names, ht.literals⟩

theorem wellFormed_mk_cons {part : List Rune × List Rune} {parts : List (List Rune × List Rune)} :
    WellFormed ⟨s, part :: parts⟩ ↔
      Plain s ∧ (Plain part.1 ∧ part.1 ≠ []) ∧ WellFormed ⟨part.2, parts⟩ := by
  constructor
  · intro ht
    obtain ⟨hn, hns⟩ := List.forall_mem_cons.1 ht.names
    obtain ⟨hl, hls⟩ := List.forall_mem_cons.1 ht.literals
    exact ⟨ht.lead, hn, hl, hns, hls⟩
  · rintro ⟨hs, hn, ht⟩
    exact ⟨hs, List.forall_mem_cons.2 ⟨hn, ht.names⟩, List.forall_mem_cons.2 ⟨ht.lead, ht.literals⟩⟩

theorem wellFormed_placed (hn : Plain name) (he : name ≠ []) (ht : t.WellFormed) :
    (t.placed name).WellFormed :=
  wellFormed_mk_cons.2 ⟨plain_nil, ⟨hn, he⟩, ht⟩

/-! ### Steps of the scanner -/

theorem scan_open (hr : ∀ tail, rest ≠ .char '}' :: tail) :
    scan here (.char '{' :: rest) =
      (scanName here (here + 1) rest).map fun found => found.2.placed found.1 := by
  rw [scan.eq_4 here rest hr]
  cases scanName here (here + 1) rest <;> rfl

theorem scan_plain (hc : c ≠ '{' ∧ c ≠ '}') :
    scan here (c :: rest) = (scan (here + 1) rest).map (cons c) := by
  rw [scan.eq_5 here c rest hc.2 (fun _ h => absurd h hc.1) hc.1]
  cases scan (here + 1) rest <;> rfl

theorem scanName_close :
    scanName start here ('}' :: rest) = (scan (here + 1) rest).map fun t => ([], t) := by
  rw [scanName]
  cases scan (here + 1) rest <;> rfl

theorem scanName_plain (hc : c ≠ '{' ∧ c ≠ '}') :
    scanName start here (c :: rest) =
      (scanName start (here + 1) rest).map fun found => (c :: found.1, found.2) := by
  rw [scanName.eq_4 start here c rest hc.1 hc.2]
  cases scanName start (here + 1) rest <;> rfl

theorem scan_sound (h : scan here s = .ok t) : t.WellFormed ∧ t.text = s := by
  suffices hs : (∀ here s t, scan here s = .ok t → t.WellFormed ∧ t.text = s) ∧
      ∀ start here s name t, scanName start here s = .ok (name, t) →
        Plain name ∧ t.WellFormed ∧ name ++ .char '}' :: t.text = s from hs.1 here s t h
  apply scan.mutual_induct (fun here s => ∀ t, scan here s = .ok t → t.WellFormed ∧ t.text = s)
    (fun start here s => ∀ name t, scanName start here s = .ok (name, t) →
      Plain name ∧ t.WellFormed ∧ name ++ .char '}' :: t.text = s)
  case case1 =>
    intro here t h
    rw [scan] at h
    cases h
    exact ⟨wellFormed_empty, rfl⟩
  case case2 => intro here rest t h; rw [scan] at h; cases h
  case case3 => intro here rest t h; rw [scan] at h; cases h
  case case4 =>
    intro here rest hr ih t h
    rw [scan_open hr] at h
    obtain ⟨⟨name, u⟩, hu, rfl⟩ := Outcome.map_eq_ok_iff.1 h
    obtain ⟨hn, hw, rfl⟩ := ih name u hu
    -- After an empty name the text would go on with the closing brace.
    have he : name ≠ [] := fun he => hr u.text (by rw [he]; rfl)
    exact ⟨wellFormed_placed hn he hw, text_placed name u⟩
  case case5 =>
    intro here c rest hc _ ho ih t h
    rw [scan_plain ⟨ho, hc⟩] at h
    obtain ⟨u, hu, rfl⟩ := Outcome.map_eq_ok_iff.1 h
    obtain ⟨hw, rfl⟩ := ih u hu
    exact ⟨wellFormed_cons ⟨ho, hc⟩ hw, text_cons c u⟩
  case case6 => intro start here name t h; rw [scanName] at h; cases h
  case case7 => intro start here rest name t h; rw [scanName] at h; cases h
  case case8 =>
    intro start here rest ih name t h
    rw [scanName_close] at h
    obtain ⟨u, hu, he⟩ := Outcome.map_eq_ok_iff.1 h
    cases he
    obtain ⟨hw, rfl⟩ := ih _ hu
    exact ⟨plain_nil, hw, rfl⟩
  case case9 =>
    intro start here c rest ho hc ih name t h
    rw [scanName_plain ⟨ho, hc⟩] at h
    obtain ⟨⟨found, u⟩, hu, he⟩ := Outcome.map_eq_ok_iff.1 h
    cases he
    obtain ⟨hn, hw, rfl⟩ := ih _ _ hu
    exact ⟨plain_cons.2 ⟨⟨ho, hc⟩, hn⟩, hw, rfl⟩

theorem scanName_append (hn : Plain name) :
    scanName start here (name ++ .char '}' :: rest) =
      (scan (here + (name.length + 1)) rest).map fun t => (name, t) := by
  induction name generalizing here with
  | nil => exact scanName_close
  | cons c name ih =>
    obtain ⟨hc, hn⟩ := plain_cons.1 hn
    have hlen : here + 1 + (name.length + 1) = here + ((c :: name).length + 1) := by
      rw [List.length_cons]
      omega
    rw [List.cons_append, scanName_plain hc, ih hn, hlen]
    cases scan (here + ((c :: name).length + 1)) rest <;> rfl

theorem scan_append (hl : Plain s) :
    scan here (s ++ rest) = (scan (here + s.length) rest).map fun t => ⟨s ++ t.lead, t.parts⟩ := by
  induction s generalizing here with
  | nil =>
    rw [List.nil_append, List.length_nil, Nat.add_zero]
    cases scan here rest <;> rfl
  | cons c s ih =>
    obtain ⟨hc, hl⟩ := plain_cons.1 hl
    have hlen : here + 1 + s.length = here + (c :: s).length := by
      rw [List.length_cons]
      omega
    rw [List.cons_append, scan_plain hc, ih hl, hlen]
    cases scan (here + (c :: s).length) rest <;> rfl

theorem append_ne_close (hn : Plain name) (hr : name = [] → ∀ tail, rest ≠ .char '}' :: tail) :
    ∀ tail, name ++ rest ≠ .char '}' :: tail := by
  cases name with
  | nil => exact hr rfl
  | cons c name =>
    intro tail h
    exact (plain_cons.1 hn).1.2 (List.cons.inj h).1

theorem scan_placed (hn : Plain name) (he : name ≠ []) :
    scan here (.char '{' :: name ++ .char '}' :: rest) =
      (scan (here + (name.length + 2)) rest).map (placed name) := by
  have hlen : here + 1 + (name.length + 1) = here + (name.length + 2) := by omega
  rw [List.cons_append, scan_open (append_ne_close hn fun h => absurd h he), scanName_append hn,
    hlen]
  cases scan (here + (name.length + 2)) rest <;> rfl

/-- Every well-formed template is found again in its text, wherever that stands. -/
theorem scan_complete (ht : t.WellFormed) (here : Nat) : scan here t.text = .ok t := by
  obtain ⟨lead, parts⟩ := t
  induction parts generalizing lead here with
  | nil =>
    rw [text, List.flatMap_nil, scan_append ht.lead, scan]
    simp only [Except.map, List.append_nil]
  | cons part parts ih =>
    obtain ⟨hl, ⟨hn, he⟩, htail⟩ := wellFormed_mk_cons.1 ht
    rw [text_mk_cons, text_placed, scan_append hl, scan_placed hn he, ih _ part.2 htail]
    simp only [Except.map, placed, List.append_nil]

theorem scan_eq_ok_iff : scan here s = .ok t ↔ t.WellFormed ∧ t.text = s := by
  constructor
  · exact scan_sound
  · rintro ⟨ht, rfl⟩
    exact scan_complete ht here

theorem ofPath_eq_ok_iff {path : Text} :
    ofPath path = .ok t ↔ t.WellFormed ∧ t.text = path.toList := by
  rw [ofPath, ← scan_eq_ok_iff]
  cases scan 0 path.toList with
  | ok u => simp only [Except.ok.injEq]
  | error fault => simp only [reduceCtorEq]

theorem ofPath_error_path {path : Text} {f : Fault} (h : ofPath path = .error f) :
    f.path = path := by
  rw [ofPath] at h
  split at h <;> cases h
  rfl

theorem WellFormed.text_inj (ht : t.WellFormed) (hu : u.WellFormed) (h : u.text = t.text) :
    u = t := by
  have hs := scan_complete hu 0
  rw [h, scan_complete ht 0] at hs
  exact (Except.ok.inj hs).symm

end Template

theorem interpolateWith_eq_ok_iff {varName : List Rune → List Rune} {path out : Text} :
    interpolateWith varName path = .ok out ↔
      ∃ t : Template, (t.WellFormed ∧ t.text = path.toList) ∧
        Text.ofList (t.rendered varName) = out := by
  rw [interpolateWith, Outcome.bind_eq_ok_iff]
  constructor
  · rintro ⟨t, ht, he⟩
    exact ⟨t, Template.ofPath_eq_ok_iff.1 ht, Except.ok.inj he⟩
  · rintro ⟨t, ht, rfl⟩
    exact ⟨t, Template.ofPath_eq_ok_iff.2 ht, rfl⟩

theorem refused_alike (varName : List Rune → List Rune) {path : Text}
    (h : ¬ ∃ t : Template, t.WellFormed ∧ t.text = path.toList) :
    ∃ f : Fault, f.path = path ∧
      interpolateWith varName path = .error f ∧ placeholderNames path = .error f := by
  cases hp : Template.ofPath path with
  | ok t => exact absurd ⟨t, Template.ofPath_eq_ok_iff.1 hp⟩ h
  | error f =>
    refine ⟨f, Template.ofPath_error_path hp, ?_, ?_⟩
    · rw [interpolateWith, hp]; rfl
    · rw [placeholderNames, hp]; rfl

/-- A path is interpolated iff it is written as a template. There is then no other such template,
and each of its names stands in the result as the expression of its variable. Every other path
is refused, by the search for names too. -/
theorem interpolateWith_reads_template (varName : List Rune → List Rune) (path : Text) :
    ((∃ out, interpolateWith varName path = .ok out) ↔
      ∃ t : Template, t.WellFormed ∧ t.text = path.toList) ∧
    (∀ t : Template, t.WellFormed → t.text = path.toList →
      (∀ u : Template, u.WellFormed → u.text = path.toList → u = t) ∧
      interpolateWith varName path = .ok (Text.ofList (t.lead ++ t.parts.flatMap fun part =>
        "$\x7bencodeURIComponent(String(".runes ++ varName part.1 ++ "))\x7d".runes ++ part.2)) ∧
      placeholderNames path = .ok (t.parts.map fun part => Text.ofList part.1)) ∧
    ((¬ ∃ t : Template, t.WellFormed ∧ t.text = path.toList) →
      ∃ f : Fault, f.path = path ∧
        interpolateWith varName path = .error f ∧ placeholderNames path = .error f) := by
  refine ⟨⟨?_, ?_⟩, ?_, refused_alike varName⟩
  · rintro ⟨out, h⟩
    obtain ⟨t, ht, _⟩ := interpolateWith_eq_ok_iff.1 h
    exact ⟨t, ht⟩
  · rintro ⟨t, ht⟩
    exact ⟨_, interpolateWith_eq_ok_iff.2 ⟨t, ht, rfl⟩⟩
  · intro t ht hs
    refine ⟨fun u hu hus => ht.text_inj hu (hus.trans hs.symm), ?_, ?_⟩
    · exact interpolateWith_eq_ok_iff.2 ⟨t, ⟨ht, hs⟩, rfl⟩
    · rw [placeholderNames, Template.ofPath_eq_ok_iff.2 ⟨ht, hs⟩]
      rfl

example : placeholderNames "\x7ba\x7d\x7bb-c\x7d/d" = .ok ["a", "b-c"] := by cbv

end ApiPrep.Path
