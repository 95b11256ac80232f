namespace ApiPrep

/-- A code point of the range whose points stand in pairs for one character, alone it is none. -/
structure Half where
  rank : Fin 0x800
deriving DecidableEq, Repr

/-- A piece of a text: a character, or half of a pair that lacks its other half. -/
inductive Rune where
  | char (c : Char)
  | half (h : Half)
deriving DecidableEq, Repr

namespace Rune

instance : Coe Char Rune := ⟨char⟩

instance : Inhabited Rune := ⟨char default⟩

def toNat : Rune → Nat
  | char c => c.toNat
  | half h => 0xD800 + h.rank

def ofNat (n : Nat) : Rune :=
  if h : 0xD800 ≤ n ∧ n < 0xE000 then half ⟨⟨n - 0xD800, by omega⟩⟩ else char (.ofNat n)

instance : LE Rune := ⟨fun a b => a.toNat ≤ b.toNat⟩

instance (a b : Rune) : Decidable (a ≤ b) := inferInstanceAs (Decidable (a.toNat ≤ b.toNat))

def isUpper (c : Rune) : Bool := decide (65 ≤ c.toNat) && decide (c.toNat ≤ 90)

def isLower (c : Rune) : Bool := decide (97 ≤ c.toNat) && decide (c.toNat ≤ 122)

def isDigit (c : Rune) : Bool := decide (48 ≤ c.toNat) && decide (c.toNat ≤ 57)

def isAlpha (c : Rune) : Bool := c.isUpper || c.isLower

def isAlphanum (c : Rune) : Bool := c.isAlpha || c.isDigit

def toUpper (c : Rune) : Rune := if c.isLower then ofNat (c.toNat - 32) else c

def toLower (c : Rune) : Rune := if c.isUpper then ofNat (c.toNat + 32) else c

theorem isUpper_iff {c : Rune} : c.isUpper = true ↔ 65 ≤ c.toNat ∧ c.toNat ≤ 90 := by
  rw [isUpper, Bool.and_eq_true, decide_eq_true_eq, decide_eq_true_eq]

theorem isLower_iff {c : Rune} : c.isLower = true ↔ 97 ≤ c.toNat ∧ c.toNat ≤ 122 := by
  rw [isLower, Bool.and_eq_true, decide_eq_true_eq, decide_eq_true_eq]

theorem isDigit_iff {c : Rune} : c.isDigit = true ↔ 48 ≤ c.toNat ∧ c.toNat ≤ 57 := by
  rw [isDigit, Bool.and_eq_true, decide_eq_true_eq, decide_eq_true_eq]

theorem isDigit_char {c : Char} (h : c.isDigit = true) : (char c).isDigit = true := by
  rw [Char.isDigit, Bool.and_eq_true, decide_eq_true_eq, decide_eq_true_eq] at h
  exact isDigit_iff.2 h

theorem isAlphanum_iff {c : Rune} :
    c.isAlphanum = true ↔ (c.isUpper = true ∨ c.isLower = true) ∨ c.isDigit = true := by
  rw [isAlphanum, isAlpha, Bool.or_eq_true, Bool.or_eq_true]

def isHalf : Rune → Bool
  | char _ => false
  | half _ => true

theorem toNat_ofNat {n : Nat} (h : n < 0x110000) : (ofNat n).toNat = n := by
  unfold ofNat
  split
  · exact Nat.add_sub_of_le (by omega)
  · have hvalid : n.isValidChar := by
      unfold Nat.isValidChar
      omega
    rw [toNat, Char.ofNat, dif_pos hvalid]
    rfl

theorem not_half_of_char (c : Char) : ¬(0xD800 ≤ c.toNat ∧ c.toNat < 0xE000) := by
  intro hc
  rcases c.valid with h | h
  · have hlow : c.toNat < 0xD800 := h
    omega
  · have hhigh : 0xDFFF < c.toNat := h.1
    omega

theorem toNat_injective {a b : Rune} (h : a.toNat = b.toNat) : a = b := by
  cases a with
  | char a =>
    cases b with
    | char b => exact congrArg char (Char.toNat_inj.1 h)
    | half b =>
      have hb := b.rank.isLt
      have ha := not_half_of_char a
      simp only [toNat] at h
      omega
  | half a =>
    have ha := a.rank.isLt
    cases b with
    | char b =>
      have hb := not_half_of_char b
      simp only [toNat] at h
      omega
    | half b =>
      simp only [toNat] at h
      exact congrArg (half ⟨·⟩) (Fin.ext (by omega))

theorem toNat_inj {a b : Rune} : a.toNat = b.toNat ↔ a = b := ⟨toNat_injective, congrArg toNat⟩

theorem ofNat_toNat (c : Rune) : ofNat c.toNat = c := by
  cases c with
  | char c => exact (dif_neg (not_half_of_char c)).trans (congrArg char (Char.ofNat_toNat c))
  | half h =>
    have hr := h.rank.isLt
    have hh : 0xD800 ≤ (half h).toNat ∧ (half h).toNat < 0xE000 := by
      simp only [toNat]
      omega
    rw [ofNat, dif_pos hh]
    exact congrArg (half ⟨·⟩) (Fin.ext (Nat.add_sub_cancel_left ..))

end Rune

end ApiPrep

def String.runes (s : String) : List ApiPrep.Rune := s.toList.map .char

namespace ApiPrep

/-- A text as the program has it: any sequence of code points. -/
structure Text where
  ofList ::
  toList : List Rune
deriving DecidableEq, Repr

namespace Text

def ofString (s : String) : Text := ⟨s.runes⟩

instance : Coe String Text := ⟨ofString⟩

instance : Inhabited Text := ⟨""⟩

instance : Append Text := ⟨fun s t => ⟨s.toList ++ t.toList⟩⟩

instance : LT Text := ⟨fun s t => s.toList.map Rune.toNat < t.toList.map Rune.toNat⟩

instance instDecidableLt (s t : Text) : Decidable (s < t) :=
  inferInstanceAs (Decidable (s.toList.map Rune.toNat < t.toList.map Rune.toNat))

protected def length (s : Text) : Nat := s.toList.length

protected def isEmpty (s : Text) : Bool := s.toList.isEmpty

protected def contains (s : Text) (c : Rune) : Bool := s.toList.contains c

def startsWith (s lead : Text) : Bool := lead.toList.isPrefixOf s.toList

def endsWith (s ending : Text) : Bool := ending.toList.isSuffixOf s.toList

def intercalate (sep : Text) (parts : List Text) : Text :=
  ⟨sep.toList.intercalate (parts.map toList)⟩

variable {s t : Text} {l l' : List Rune}

@[ext] theorem toList_injective (h : s.toList = t.toList) : s = t := congrArg ofList h

theorem toList_inj : s.toList = t.toList ↔ s = t := ⟨toList_injective, congrArg toList⟩

theorem ofList_inj : ofList l = ofList l' ↔ l = l' := ⟨congrArg toList, congrArg ofList⟩

theorem toList_ofList (l : List Rune) : (ofList l).toList = l := rfl

theorem ofList_toList (s : Text) : ofList s.toList = s := rfl

@[simp] theorem toList_append (s t : Text) : (s ++ t).toList = s.toList ++ t.toList := rfl

@[simp] theorem toList_ofString (s : String) : (ofString s).toList = s.runes := rfl

@[simp] theorem ofString_inj {s t : String} : ofString s = ofString t ↔ s = t := by
  rw [← toList_inj, toList_ofString, toList_ofString, String.runes, String.runes,
    List.map_inj_right fun _ _ => Rune.char.inj, String.toList_inj]

theorem toList_intercalate (sep : Text) (parts : List Text) :
    (intercalate sep parts).toList = sep.toList.intercalate (parts.map toList) := rfl

theorem length_toList (s : Text) : s.toList.length = s.length := rfl

theorem ofList_append (l l' : List Rune) : ofList (l ++ l') = ofList l ++ ofList l' := rfl

theorem toList_eq_nil_iff : s.toList = [] ↔ s = "" := toList_inj (t := "")

theorem append_empty (s : Text) : s ++ "" = s := toList_injective (List.append_nil _)

theorem append_assoc (s t u : Text) : s ++ t ++ u = s ++ (t ++ u) :=
  toList_injective (List.append_assoc ..)

def isWhole (s : Text) : Bool := s.toList.all fun c => !c.isHalf

end Text

end ApiPrep
