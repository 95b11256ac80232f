import ApiPrep.Proofs.Naming.VariableName

namespace ApiPrep.Naming

open Text

variable {c x sep before : Rune} {s t w rest : List Rune} {words : List (List Rune)}

def IsWord (first : Rune → Bool) : List Rune → Prop
  | [] => False
  | c :: rest => first c = true ∧ rest ≠ [] ∧ ∀ x ∈ rest, x.isLower = true ∨ x.isDigit = true

instance decidableIsWord (first : Rune → Bool) : (w : List Rune) → Decidable (IsWord first w)
  | [] => .isFalse id
  | c :: rest => decidable_of_iff
      (first c = true ∧ rest ≠ [] ∧ rest.all (fun x => x.isLower || x.isDigit) = true)
      (by simp only [IsWord, List.all_eq_true, Bool.or_eq_true])

/-- What classes are called by convention: words with a capital each, in one. -/
def IsClassName (name : List Rune) : Prop :=
  ∃ words, words ≠ [] ∧ (∀ w ∈ words, IsWord Rune.isUpper w) ∧ words.flatten = name

/-- What files are called by convention: words in small letters, with single dashes between. -/
def IsFileName (name : List Rune) : Prop :=
  ∃ words, (∀ w ∈ words, IsWord Rune.isLower w) ∧ [Rune.char '-'].intercalate words = name

/-! ### Letters of words -/

theorem alphanum_of_small (h : x.isLower = true ∨ x.isDigit = true) : x.isAlphanum = true := by
  change (x.isUpper || x.isLower || x.isDigit) = true
  rcases h with h | h <;> simp only [h, Bool.or_true, Bool.true_or]

theorem alphanum_of_upper (h : c.isUpper = true) : c.isAlphanum = true := by
  change (c.isUpper || c.isLower || c.isDigit) = true
  rw [h, Bool.true_or, Bool.true_or]

theorem small_char (h : x.isLower = true ∨ x.isDigit = true) :
    x.isUpper = false ∧ lowerChar x = [x] ∧ (x.isLower || isDigit x) = true := by
  have hascii : ∀ x : Rune, x.toNat < 128 → (x.isLower = true ∨ x.isDigit = true) →
      x.isUpper = false ∧ lowerChar x = [x] ∧ (x.isLower || isDigit x) = true :=
    forall_ascii (by decide +kernel)
  exact hascii x (lt_of_isAlphanum (alphanum_of_small h)) h

theorem upper_char (h : c.isUpper = true) : lowerChar c = [c.toLower] ∧ lower [c] = [c.toLower] ∧
    c.toLower.isLower = true ∧ upperChar c.toLower = [c] ∧ upperChar c = [c] := by
  have hascii : ∀ c : Rune, c.toNat < 128 → c.isUpper = true →
      lowerChar c = [c.toLower] ∧ lower [c] = [c.toLower] ∧ c.toLower.isLower = true ∧
        upperChar c.toLower = [c] ∧ upperChar c = [c] := forall_ascii (by decide +kernel)
  exact hascii c (lt_of_isAlphanum (alphanum_of_upper h)) h

theorem lower_char (h : c.isLower = true) :
    upperChar c = [c.toUpper] ∧ c.toUpper.isUpper = true ∧ lower [c.toUpper] = [c] := by
  have hascii : ∀ c : Rune, c.toNat < 128 → c.isLower = true →
      upperChar c = [c.toUpper] ∧ c.toUpper.isUpper = true ∧ lower [c.toUpper] = [c] :=
    forall_ascii (by decide +kernel)
  exact hascii c (lt_of_isAlphanum (alphanum_of_small (.inl h))) h

theorem IsWord.uncapitalized (h : IsWord Rune.isUpper w) :
    IsWord Rune.isLower (uncapitalized w) ∧ capitalized (uncapitalized w) = w := by
  cases w with
  | nil => exact h.elim
  | cons c rest =>
    obtain ⟨hc, hne, hrest⟩ := h
    obtain ⟨-, hlower, hsmall, hback, -⟩ := upper_char hc
    rw [Naming.uncapitalized, hlower, List.singleton_append]
    refine ⟨⟨hsmall, hne, hrest⟩, ?_⟩
    rw [capitalized, hback, List.singleton_append]

theorem IsWord.capitalized (h : IsWord Rune.isLower w) :
    IsWord Rune.isUpper (capitalized w) ∧ Naming.uncapitalized (capitalized w) = w := by
  cases w with
  | nil => exact h.elim
  | cons c rest =>
    obtain ⟨hc, hne, hrest⟩ := h
    obtain ⟨hupper, hcapital, hback⟩ := lower_char hc
    rw [Naming.capitalized, hupper, List.singleton_append]
    refine ⟨⟨hcapital, hne, hrest⟩, ?_⟩
    rw [Naming.uncapitalized, hback, List.singleton_append]

theorem IsWord.ne_nil {first : Rune → Bool} (h : IsWord first w) : w ≠ [] := by
  rintro rfl
  exact h

theorem IsWord.alphanum {first : Rune → Bool} (hfirst : ∀ c, first c = true → c.isAlphanum = true)
    (h : IsWord first w) : ∀ x ∈ w, x.isAlphanum = true := by
  cases w with
  | nil => exact h.elim
  | cons c rest =>
    obtain ⟨hc, -, hrest⟩ := h
    exact List.forall_mem_cons.2 ⟨hfirst c hc, fun x hx => alphanum_of_small (hrest x hx)⟩

theorem IsWord.alphanum_of_lower (h : IsWord Rune.isLower w) : ∀ x ∈ w, x.isAlphanum = true :=
  h.alphanum fun _ hc => alphanum_of_small (.inl hc)

/-! ### Words apart and in one -/

theorem camelize_intercalate (hsep : isSeparator sep = true)
    (h : ∀ w ∈ words, IsWord Rune.isLower w) :
    camelize ([sep].intercalate words) = (words.map capitalized).flatten := by
  have hword (w : List Rune) (hw : IsWord Rune.isLower w) (t : List Rune) :
      joined true (w ++ t) = capitalized w ++ joined false t :=
    joined_true_append hw.ne_nil
      (fun x hx => isSeparator_of_isAlphanum (hw.alphanum_of_lower x hx)) t
  have hrest : ∀ words : List (List Rune), (∀ w ∈ words, IsWord Rune.isLower w) →
      joined false (words.flatMap (sep :: ·)) = (words.map capitalized).flatten := by
    intro words h
    induction words with
    | nil => rfl
    | cons w words ih =>
      obtain ⟨hw, hwords⟩ := List.forall_mem_cons.1 h
      rw [List.flatMap_cons, List.cons_append, joined, if_pos hsep, hword w hw, ih hwords]
      rfl
  cases words with
  | nil => rfl
  | cons w words =>
    obtain ⟨hw, hwords⟩ := List.forall_mem_cons.1 h
    rw [camelize_eq_joined, intercalate_cons, hword w hw, hrest words hwords]
    rfl

theorem dashed_small (hx : x.isLower = true ∨ x.isDigit = true) (before : Rune) (b : Bool)
    (t : List Rune) :
    ∃ b', dashed b (marked before (x :: t)) = x :: dashed b' (marked x t) := by
  obtain ⟨hupper, hlower, -⟩ := small_char hx
  obtain ⟨rest, b', hd⟩ :=
    dashed_plain b (marked x t) (isSeparator_of_isAlphanum (alphanum_of_small hx))
  refine ⟨b', ?_⟩
  rw [marked, startsWord, hupper, Bool.false_and, if_neg Bool.false_ne_true, hd,
    (lowerHere_eq_self_iff b rest).2 hlower]
  rfl

theorem dashed_word (hne : rest ≠ []) (h : ∀ x ∈ rest, x.isLower = true ∨ x.isDigit = true)
    (before : Rune) (b : Bool) (t : List Rune) : ∃ last b', (last.isLower || isDigit last) = true ∧
      dashed b (marked before (rest ++ t)) = rest ++ dashed b' (marked last t) := by
  induction rest generalizing before b with
  | nil => exact absurd rfl hne
  | cons x rest ih =>
    obtain ⟨hx, hrest⟩ := List.forall_mem_cons.1 h
    obtain ⟨b', hd⟩ := dashed_small hx before b (rest ++ t)
    rw [List.cons_append, hd]
    by_cases hlast : rest = []
    · rw [hlast]
      exact ⟨x, b', (small_char hx).2.2, rfl⟩
    · obtain ⟨last, b'', hsmall, hword⟩ := ih hlast hrest x b'
      exact ⟨last, b'', hsmall, congrArg (x :: ·) hword⟩

theorem dashed_start (hbefore : (before.isLower || isDigit before) = true)
    (hc : c.isUpper = true) (b : Bool) (t : List Rune) :
    ∃ b', dashed b (marked before (c :: t)) = .char '-' :: c.toLower :: dashed b' (marked c t) := by
  obtain ⟨rest, b', hd⟩ :=
    dashed_plain false (marked c t) (isSeparator_of_isAlphanum (alphanum_of_upper hc))
  refine ⟨b', ?_⟩
  rw [marked, startsWord, hc, hbefore, Bool.true_or, Bool.true_and, if_pos rfl, dashed_mark, hd,
    lowerHere_false, (upper_char hc).1]
  rfl

theorem dashed_words (h : ∀ w ∈ words, IsWord Rune.isUpper w)
    (hbefore : (before.isLower || isDigit before) = true) (b : Bool) :
    dashed b (marked before words.flatten) =
      (words.map uncapitalized).flatMap (.char '-' :: ·) := by
  induction words generalizing before b with
  | nil => rfl
  | cons w words ih =>
    obtain ⟨hw, hwords⟩ := List.forall_mem_cons.1 h
    cases w with
    | nil => exact hw.elim
    | cons c rest =>
      obtain ⟨hc, hne, hrest⟩ := hw
      obtain ⟨b', hstart⟩ := dashed_start hbefore hc b (rest ++ words.flatten)
      obtain ⟨last, b'', hlast, hword⟩ := dashed_word hne hrest c b' words.flatten
      rw [List.flatten_cons, List.cons_append, hstart, hword, ih hwords hlast, List.map_cons,
        List.flatMap_cons, uncapitalized, (upper_char hc).2.1]
      rfl

theorem dashize_flatten (h : ∀ w ∈ words, IsWord Rune.isUpper w) :
    dashize words.flatten = [Rune.char '-'].intercalate (words.map uncapitalized) := by
  cases words with
  | nil => rfl
  | cons w words =>
    obtain ⟨hw, hwords⟩ := List.forall_mem_cons.1 h
    cases w with
    | nil => exact hw.elim
    | cons c rest =>
      obtain ⟨hc, hne, hrest⟩ := hw
      obtain ⟨_, b, hfirst⟩ := dashed_plain false (marked c (rest ++ words.flatten))
        (isSeparator_of_isAlphanum (alphanum_of_upper hc))
      obtain ⟨last, b', hlast, hword⟩ := dashed_word hne hrest c b words.flatten
      rw [List.flatten_cons, List.cons_append, dashize_cons, hfirst, hword, lowerHere_false,
        (upper_char hc).1, dashed_words hwords hlast, List.map_cons, intercalate_cons,
        uncapitalized, (upper_char hc).2.1, List.append_assoc]

theorem map_capitalized_uncapitalized (h : ∀ w ∈ words, IsWord Rune.isUpper w) :
    (words.map uncapitalized).map capitalized = words := by
  rw [List.map_map]
  exact (List.map_congr_left fun w hw => (h w hw).uncapitalized.2).trans (List.map_id words)

theorem map_uncapitalized_capitalized (h : ∀ w ∈ words, IsWord Rune.isLower w) :
    (words.map capitalized).map uncapitalized = words := by
  rw [List.map_map]
  exact (List.map_congr_left fun w hw => (h w hw).capitalized.2).trans (List.map_id words)

theorem isWord_uncapitalized (h : ∀ w ∈ words, IsWord Rune.isUpper w) :
    ∀ w ∈ words.map uncapitalized, IsWord Rune.isLower w :=
  List.forall_mem_map.2 fun w hw => (h w hw).uncapitalized.1

theorem isWord_capitalized (h : ∀ w ∈ words, IsWord Rune.isLower w) :
    ∀ w ∈ words.map capitalized, IsWord Rune.isUpper w :=
  List.forall_mem_map.2 fun w hw => (h w hw).capitalized.1

theorem IsClassName.camelize_dashize (h : IsClassName s) : camelize (dashize s) = s := by
  obtain ⟨words, -, hwords, rfl⟩ := h
  rw [dashize_flatten hwords, camelize_intercalate (by decide) (isWord_uncapitalized hwords),
    map_capitalized_uncapitalized hwords]

theorem IsFileName.dashize_camelize (h : IsFileName s) : dashize (camelize s) = s := by
  obtain ⟨words, hwords, rfl⟩ := h
  rw [camelize_intercalate (by decide) hwords, dashize_flatten (isWord_capitalized hwords),
    map_uncapitalized_capitalized hwords]

/-! ### Model names -/

theorem sanitize_alphanum (h : ∀ x ∈ w, x.isAlphanum = true) : sanitize w = w := by
  rw [sanitize_plain fun x hx => isSeparator_of_isAlphanum (h x hx)]
  exact List.filter_eq_self.2 h

theorem sanitize_intercalate (h : ∀ w ∈ words, IsWord Rune.isLower w) :
    sanitize ([Rune.char '-'].intercalate words) = [Rune.char '_'].intercalate words := by
  have hrest : ∀ words : List (List Rune), (∀ w ∈ words, IsWord Rune.isLower w) →
      sanitize (words.flatMap (.char '-' :: ·)) = words.flatMap (.char '_' :: ·) := by
    intro words h
    induction words with
    | nil => rfl
    | cons w words ih =>
      obtain ⟨hw, hwords⟩ := List.forall_mem_cons.1 h
      rw [List.flatMap_cons, List.flatMap_cons, List.cons_append, sanitize_cons,
        if_pos (by decide), sanitize_append, sanitize_alphanum hw.alphanum_of_lower, ih hwords]
      rfl
  cases words with
  | nil => rfl
  | cons w words =>
    obtain ⟨hw, hwords⟩ := List.forall_mem_cons.1 h
    rw [intercalate_cons, intercalate_cons, sanitize_append, sanitize_alphanum hw.alphanum_of_lower,
      hrest words hwords]

theorem startsWithDigit_intercalate (h : ∀ w ∈ words, IsWord Rune.isLower w) :
    startsWithDigit ([Rune.char '_'].intercalate words) = false := by
  cases words with
  | nil => rfl
  | cons w words =>
    have hw := h w List.mem_cons_self
    cases w with
    | nil => exact hw.elim
    | cons c rest =>
      have hascii : ∀ c : Rune, c.toNat < 128 → c.isLower = true → isDigit c = false :=
        forall_ascii (by decide +kernel)
      rw [intercalate_cons]
      exact hascii c (lt_of_isAlphanum (alphanum_of_small (.inl hw.1))) hw.1

theorem lowerChar_of_isWord (hw : IsWord Rune.isLower w) : ∀ x ∈ w, lowerChar x = [x] := by
  cases w with
  | nil => exact hw.elim
  | cons c rest =>
    obtain ⟨hc, -, hrest⟩ := hw
    exact List.forall_mem_cons.2
      ⟨(small_char (.inl hc)).2.1, fun x hx => (small_char (hrest x hx)).2.1⟩

theorem not_isReserved_intercalate (h : ∀ w ∈ words, IsWord Rune.isLower w)
    (hfree : Text.ofList ([Rune.char '-'].intercalate words) ∉ reservedWords) :
    isReserved ([Rune.char '_'].intercalate words) = false := by
  have hlower : lower ([Rune.char '_'].intercalate words) = [Rune.char '_'].intercalate words := by
    refine lowerAfter_eq_self (fun x hx => ?_) false
    cases words with
    | nil => cases hx
    | cons w words =>
      obtain ⟨hw, hwords⟩ := List.forall_mem_cons.1 h
      rw [intercalate_cons, List.mem_append, List.mem_flatMap] at hx
      rcases hx with hx | ⟨v, hv, hx⟩
      · exact lowerChar_of_isWord hw x hx
      · rcases List.mem_cons.1 hx with rfl | hx
        · decide +kernel
        · exact lowerChar_of_isWord (hwords v hv) x hx
  have hnot : Text.ofList ([Rune.char '_'].intercalate words) ∉ reservedWords := by
    match words with
    | [] => exact hfree
    | [w] => exact hfree
    | w :: v :: words =>
      apply not_reserved_of_underscore
      rw [List.intercalate_cons_cons]
      exact List.mem_append_left _ (List.mem_append_right _ List.mem_cons_self)
  rw [isReserved, hlower, Bool.or_self, Bool.eq_false_iff]
  exact mt List.contains_iff_mem.1 hnot

theorem IsClassName.modelName_eq (h : IsClassName s)
    (hfree : Text.ofList (dashize s) ∉ reservedWords) : modelName s = s := by
  obtain ⟨words, -, hwords, rfl⟩ := h
  have hsmall := isWord_uncapitalized hwords
  rw [dashize_flatten hwords] at hfree
  rw [modelName, dashize_flatten hwords, sanitize_intercalate hsmall,
    not_isReserved_intercalate hsmall hfree, startsWithDigit_intercalate hsmall]
  exact (camelize_intercalate (by decide) hsmall).trans
    (congrArg List.flatten (map_capitalized_uncapitalized hwords))

theorem IsClassName.exists_cons (h : IsClassName s) :
    ∃ c rest, s = c :: rest ∧ c.isUpper = true ∧ ∀ x ∈ rest, isSeparator x = false := by
  obtain ⟨words, hne, hwords, rfl⟩ := h
  have hplain : ∀ x ∈ words.flatten, isSeparator x = false := by
    intro x hx
    obtain ⟨w, hw, hx⟩ := List.mem_flatten.1 hx
    exact isSeparator_of_isAlphanum ((hwords w hw).alphanum (fun _ => alphanum_of_upper) x hx)
  cases words with
  | nil => exact absurd rfl hne
  | cons w words =>
    have hw := hwords w List.mem_cons_self
    cases w with
    | nil => exact hw.elim
    | cons c rest =>
      refine ⟨c, rest ++ words.flatten, rfl, hw.1, fun x hx => ?_⟩
      exact hplain x (List.mem_cons_of_mem c hx)

theorem IsClassName.camelize_eq (h : IsClassName s) :
    camelize s = s ∧ camelize (lowerCamelize s) = s := by
  obtain ⟨c, rest, rfl, hc, hrest⟩ := h.exists_cons
  obtain ⟨-, hlower, hsmall, hback, hupper⟩ := upper_char hc
  have hself : camelize (c :: rest) = c :: rest := by
    have hplain : ∀ x ∈ c :: rest, isSeparator x = false :=
      List.forall_mem_cons.2 ⟨isSeparator_of_isAlphanum (alphanum_of_upper hc), hrest⟩
    rw [camelize_plain (List.cons_ne_nil c rest) hplain, capitalized, hupper]
    rfl
  have hplain : ∀ x ∈ c.toLower :: rest, isSeparator x = false :=
    List.forall_mem_cons.2
      ⟨isSeparator_of_isAlphanum (alphanum_of_small (.inl hsmall)), hrest⟩
  refine ⟨hself, ?_⟩
  rw [lowerCamelize, hself, uncapitalized, hlower, List.singleton_append,
    camelize_plain (List.cons_ne_nil _ rest) hplain, capitalized, hback]
  rfl

/-! ### Imports -/

namespace FileNames

variable {f : FileNames} {name other : Text}

/-- Whether a conventional class name can be told from the path that imports it. Without dashes its
words must not make a reserved one, since this gets a word in front. -/
def Keeps (f : FileNames) (name : Text) : Prop :=
  IsClassName name.toList ∧
    (f.kebab = true ∨ Text.ofList (dashize name.toList) ∉ reservedWords)

theorem Keeps.modelOfFile_eq (h : f.Keeps name) : f.modelOfFile (f.modelImport name) = name := by
  obtain ⟨hname, hfree⟩ := h
  have hcamel := hname.camelize_eq
  cases hk : f.kebab with
  | true => rw [modelOfFile_modelImport hk, respell, hname.camelize_dashize, Text.ofList_toList]
  | false =>
    have hmodel : respell modelName name = name := by
      have hfree := hfree.resolve_left (by rw [hk]; exact Bool.false_ne_true)
      rw [respell, hname.modelName_eq hfree, Text.ofList_toList]
    rw [modelOfFile_eq_camelize, modelFile, hk, if_neg Bool.false_ne_true, hmodel]
    dsimp only
    split
    · rw [respell, hcamel.1, Text.ofList_toList]
    · rw [respell, respell, Text.toList_ofList, hcamel.2, Text.ofList_toList]

/-- On conventional names words in one and words with dashes stand for each other, a class is found
again in the path that imports it, and so no two classes are imported from one path. -/
theorem conventional_names_recovered (f : FileNames) :
    (∀ s, IsClassName s → camelize (dashize s) = s) ∧
      (∀ s, IsFileName s → dashize (camelize s) = s) ∧
      (∀ name, f.Keeps name → f.modelOfFile (f.modelImport name) = name) ∧
      ∀ name other, f.Keeps name → f.Keeps other →
        f.modelImport name = f.modelImport other → name = other := by
  refine ⟨fun s hs => hs.camelize_dashize, fun s hs => hs.dashize_camelize,
    fun name hname => hname.modelOfFile_eq, fun name other hname hother h => ?_⟩
  rw [← hname.modelOfFile_eq, h, hother.modelOfFile_eq]

def camelFiles : FileNames := ⟨false, "src/model", "api"⟩

theorem conventional_names_recovered_gridApi :
    camelFiles.Keeps "GridApi2Response" ∧
      camelFiles.modelImport "GridApi2Response" = "src/model/gridApi2Response" ∧
      camelFiles.modelOfFile (camelFiles.modelImport "GridApi2Response") = "GridApi2Response" := by
  have hclass : IsClassName "GridApi2Response".runes :=
    ⟨["Grid".runes, "Api2".runes, "Response".runes], by decide, by decide, by decide⟩
  have hkeeps : camelFiles.Keeps "GridApi2Response" := ⟨hclass, .inr (by decide +kernel)⟩
  exact ⟨hkeeps, by decide +kernel, (conventional_names_recovered camelFiles).2.2.1 _ hkeeps⟩

-- A reserved word and the name that stands for it share their file.
example : camelFiles.modelImport "Delete" = camelFiles.modelImport "ModelDelete" := by
  decide +kernel

end FileNames

end ApiPrep.Naming
