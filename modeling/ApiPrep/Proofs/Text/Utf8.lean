import ApiPrep.Proofs.Outcome
import ApiPrep.Text.Utf8
import Mathlib.Data.Set.List
import Mathlib.Tactic.SplitIfs

namespace ApiPrep.Text.Utf8

variable {a b : UInt8} {bytes rest : List UInt8} {c : Char} {s : List Char} {n more : Nat}

/-! ### Bytes -/

theorem isContinuation_iff : isContinuation b = true ↔ 0x80 ≤ b.toNat ∧ b.toNat ≤ 0xBF := by
  simp only [isContinuation, Bool.and_eq_true, decide_eq_true_eq, UInt8.le_iff_toNat_le]
  exact Iff.rfl

theorem maySecond_iff : maySecond a b = true ↔
    (0x80 ≤ b.toNat ∧ b.toNat ≤ 0xBF) ∧ (a.toNat = 0xE0 → 0xA0 ≤ b.toNat) ∧
      (a.toNat = 0xED → b.toNat < 0xA0) ∧ (a.toNat = 0xF0 → 0x90 ≤ b.toNat) ∧
      (a.toNat = 0xF4 → b.toNat < 0x90) := by
  simp only [maySecond, Bool.and_eq_true, Bool.or_eq_true, bne_iff_ne, ne_eq, decide_eq_true_eq,
    isContinuation_iff, UInt8.le_iff_toNat_le, UInt8.lt_iff_toNat_lt, ← UInt8.toNat_inj,
    and_assoc, ← Decidable.imp_iff_not_or]
  exact Iff.rfl

theorem width?_eq (a : UInt8) :
    width? a =
      if a.toNat < 0x80 then some 1
      else if a.toNat < 0xC2 then none
      else if a.toNat < 0xE0 then some 2
      else if a.toNat < 0xF0 then some 3
      else if a.toNat < 0xF5 then some 4
      else none := by
  have hlt (k : UInt8) : a < k ↔ a.toNat < k.toNat := UInt8.lt_iff_toNat_lt
  simp only [width?, hlt, UInt8.reduceToNat]

/-! ### One character -/

theorem two_eq_ok (h : two a rest = .ok c) :
    ∃ b after, rest = b :: after ∧ isContinuation b = true ∧
      Char.ofNat (a.toNat % 0x20 * 0x40 + low b) = c := by
  match rest, h with
  | b :: after, h =>
    rw [two] at h
    split at h
    · next hb => exact ⟨b, after, rfl, hb, Except.ok.inj h⟩
    · cases h

theorem three_eq_ok (h : three a rest = .ok c) :
    ∃ b₁ b₂ after, rest = b₁ :: b₂ :: after ∧ maySecond a b₁ = true ∧ isContinuation b₂ = true ∧
      Char.ofNat ((a.toNat % 0x10 * 0x40 + low b₁) * 0x40 + low b₂) = c := by
  match rest, h with
  | [b₁], h =>
    rw [three] at h
    split at h <;> cases h
  | b₁ :: b₂ :: after, h =>
    simp only [three] at h
    split at h
    · cases h
    · next h₁ =>
      split at h
      · next h₂ => exact ⟨b₁, b₂, after, rfl, by simpa using h₁, h₂, Except.ok.inj h⟩
      · cases h

theorem four_eq_ok (h : four a rest = .ok c) :
    ∃ b₁ b₂ b₃ after, rest = b₁ :: b₂ :: b₃ :: after ∧ maySecond a b₁ = true ∧
      isContinuation b₂ = true ∧ isContinuation b₃ = true ∧
      Char.ofNat (((a.toNat % 0x08 * 0x40 + low b₁) * 0x40 + low b₂) * 0x40 + low b₃) = c := by
  match rest, h with
  | [b₁], h =>
    rw [four] at h
    split at h <;> cases h
  | [b₁, b₂], h =>
    simp only [four] at h
    split at h
    · cases h
    · split at h <;> cases h
  | b₁ :: b₂ :: b₃ :: after, h =>
    simp only [four] at h
    split at h
    · cases h
    · next h₁ =>
      split at h
      · cases h
      · next h₂ =>
        split at h
        · next h₃ =>
          exact ⟨b₁, b₂, b₃, after, rfl, by simpa using h₁, by simpa using h₂, h₃, Except.ok.inj h⟩
        · cases h

theorem val_ofNat {n : Nat} (h : n.isValidChar) : (Char.ofNat n).val.toNat = n := by
  rw [Char.ofNat, dif_pos h]
  rfl

theorem ofNat_eq (h : a.toNat = n) : UInt8.ofNat n = a := by
  rw [← h, UInt8.ofNat_toNat]

theorem encodeChar_of_found (h : found a rest = .ok (c, more)) :
    ∃ own after, rest = own ++ after ∧ own.length = more ∧ String.utf8EncodeChar c = a :: own := by
  rw [found, width?_eq] at h
  split_ifs at h with h80 hC2 hE0 hF0 hF5
  · cases h
    refine ⟨[], rest, rfl, rfl, ?_⟩
    rw [String.utf8EncodeChar, val_ofNat (.inl (by omega)), if_pos (by omega), ofNat_eq rfl]
  · obtain ⟨_, hc, he⟩ := Outcome.map_eq_ok_iff.1 h
    obtain ⟨b, after, rfl, hb, rfl⟩ := two_eq_ok hc
    cases he
    have hb := isContinuation_iff.1 hb
    refine ⟨[b], after, rfl, rfl, ?_⟩
    rw [low, String.utf8EncodeChar, val_ofNat (.inl (by omega)), if_neg (by omega),
      if_pos (by omega), ofNat_eq (a := a) (by omega), ofNat_eq (a := b) (by omega)]
  · obtain ⟨_, hc, he⟩ := Outcome.map_eq_ok_iff.1 h
    obtain ⟨b₁, b₂, after, rfl, h₁, h₂, rfl⟩ := three_eq_ok hc
    cases he
    have h₁ := maySecond_iff.1 h₁
    have h₂ := isContinuation_iff.1 h₂
    refine ⟨[b₁, b₂], after, rfl, rfl, ?_⟩
    rw [low, low, String.utf8EncodeChar, val_ofNat (by rw [Nat.isValidChar]; omega),
      if_neg (by omega), if_neg (by omega), if_pos (by omega), ofNat_eq (a := a) (by omega),
      ofNat_eq (a := b₁) (by omega), ofNat_eq (a := b₂) (by omega)]
  · obtain ⟨_, hc, he⟩ := Outcome.map_eq_ok_iff.1 h
    obtain ⟨b₁, b₂, b₃, after, rfl, h₁, h₂, h₃, rfl⟩ := four_eq_ok hc
    cases he
    have h₁ := maySecond_iff.1 h₁
    have h₂ := isContinuation_iff.1 h₂
    have h₃ := isContinuation_iff.1 h₃
    refine ⟨[b₁, b₂, b₃], after, rfl, rfl, ?_⟩
    rw [low, low, low, String.utf8EncodeChar, val_ofNat (by rw [Nat.isValidChar]; omega),
      if_neg (by omega), if_neg (by omega), if_neg (by omega), ofNat_eq (a := a) (by omega),
      ofNat_eq (a := b₁) (by omega), ofNat_eq (a := b₂) (by omega), ofNat_eq (a := b₃) (by omega)]

theorem exists_byte (h : n < 0x100) : ∃ b : UInt8, UInt8.ofNat n = b ∧ b.toNat = n :=
  ⟨_, rfl, UInt8.toNat_ofNat_of_lt' h⟩

theorem found_encodeChar (c : Char) (after : List UInt8) :
    ∃ a own, String.utf8EncodeChar c = a :: own ∧ found a (own ++ after) = .ok (c, own.length) := by
  have hc {m : Nat} (h : m = c.val.toNat) : Char.ofNat m = c := h ▸ Char.ofNat_toNat c
  have hvalid : c.val.toNat < 0xD800 ∨ 0xDFFF < c.val.toNat ∧ c.val.toNat < 0x110000 := c.valid
  rw [String.utf8EncodeChar]
  generalize c.val.toNat = v at hc hvalid
  split
  · obtain ⟨a, ea, ha⟩ := exists_byte (n := v) (by omega)
    refine ⟨a, [], by rw [ea], ?_⟩
    rw [found, width?_eq, if_pos (by omega), hc ha]
    rfl
  split
  · obtain ⟨a, ea, ha⟩ := exists_byte (n := v / 64 % 32 + 192) (by omega)
    obtain ⟨b, eb, hb⟩ := exists_byte (n := v % 64 + 128) (by omega)
    have hcont : isContinuation b = true := isContinuation_iff.2 (by omega)
    refine ⟨a, [b], by rw [ea, eb], ?_⟩
    rw [found, width?_eq, if_neg (by omega), if_neg (by omega), if_pos (by omega)]
    simp only [List.cons_append, two, hcont, if_true, low]
    rw [hc (by omega)]
    rfl
  split
  · obtain ⟨a, ea, ha⟩ := exists_byte (n := v / 4096 % 16 + 224) (by omega)
    obtain ⟨b₁, eb₁, hb₁⟩ := exists_byte (n := v / 64 % 64 + 128) (by omega)
    obtain ⟨b₂, eb₂, hb₂⟩ := exists_byte (n := v % 64 + 128) (by omega)
    have h₁ : maySecond a b₁ = true := maySecond_iff.2 (by omega)
    have h₂ : isContinuation b₂ = true := isContinuation_iff.2 (by omega)
    refine ⟨a, [b₁, b₂], by rw [ea, eb₁, eb₂], ?_⟩
    rw [found, width?_eq, if_neg (by omega), if_neg (by omega), if_neg (by omega),
      if_pos (by omega)]
    simp only [List.cons_append, three, h₁, h₂, Bool.not_true, Bool.false_eq_true, if_false,
      if_true, low]
    rw [hc (by omega)]
    rfl
  · obtain ⟨a, ea, ha⟩ := exists_byte (n := v / 262144 % 8 + 240) (by omega)
    obtain ⟨b₁, eb₁, hb₁⟩ := exists_byte (n := v / 4096 % 64 + 128) (by omega)
    obtain ⟨b₂, eb₂, hb₂⟩ := exists_byte (n := v / 64 % 64 + 128) (by omega)
    obtain ⟨b₃, eb₃, hb₃⟩ := exists_byte (n := v % 64 + 128) (by omega)
    have h₁ : maySecond a b₁ = true := maySecond_iff.2 (by omega)
    have h₂ : isContinuation b₂ = true := isContinuation_iff.2 (by omega)
    have h₃ : isContinuation b₃ = true := isContinuation_iff.2 (by omega)
    refine ⟨a, [b₁, b₂, b₃], by rw [ea, eb₁, eb₂, eb₃], ?_⟩
    rw [found, width?_eq, if_neg (by omega), if_neg (by omega), if_neg (by omega),
      if_neg (by omega), if_pos (by omega)]
    simp only [List.cons_append, four, h₁, h₂, h₃, Bool.not_true, Bool.false_eq_true, if_false,
      if_true, low]
    rw [hc (by omega)]
    rfl

/-! ### Texts -/

theorem decodeFrom_skip (own after : List UInt8) (offset : Nat) :
    decodeFrom offset own.length (own ++ after) = decodeFrom (offset + own.length) 0 after := by
  induction own generalizing offset with
  | nil => rfl
  | cons b own ih =>
    rw [List.length_cons, List.cons_append, decodeFrom, ih, Nat.add_assoc, Nat.add_comm 1]

theorem decodeFrom_encode (s : List Char) (offset : Nat) :
    decodeFrom offset 0 (encode s) = .ok s := by
  induction s generalizing offset with
  | nil => rw [encode, List.flatMap_nil, decodeFrom]
  | cons c s ih =>
    obtain ⟨a, own, hc, hfound⟩ := found_encodeChar c (encode s)
    have hencode : encode (c :: s) = a :: (own ++ encode s) := by
      rw [encode, List.flatMap_cons, hc]
      rfl
    rw [hencode, decodeFrom, hfound]
    simp only [decodeFrom_skip, ih]
    rfl

theorem encode_of_decodeFrom {offset : Nat} {bytes : List UInt8} {s : List Char}
    (h : decodeFrom offset 0 bytes = .ok s) : encode s = bytes := by
  -- On the length of the bytes, since a character may take several of them.
  match bytes, h with
  | [], h =>
    rw [decodeFrom] at h
    cases h
    rfl
  | a :: rest, h =>
    rw [decodeFrom] at h
    split at h
    · next c more hfound =>
      obtain ⟨own, after, hrest, hmore, hc⟩ := encodeChar_of_found hfound
      obtain ⟨s, hs, rfl⟩ := Outcome.map_eq_ok_iff.1 h
      rw [hrest, ← hmore, decodeFrom_skip] at hs
      have hlt : after.length ≤ rest.length := by
        rw [hrest, List.length_append]
        exact Nat.le_add_left _ _
      rw [encode, List.flatMap_cons, hc, ← encode, encode_of_decodeFrom hs, hrest]
      rfl
    · cases h
termination_by bytes.length
decreasing_by exact Nat.lt_succ_of_le hlt

/-- Bytes are decoded as a text iff they are what the text is written in. -/
theorem decode_eq_ok_iff : decode bytes = .ok s ↔ encode s = bytes := by
  constructor
  · exact encode_of_decodeFrom
  · rintro rfl
    exact decodeFrom_encode s 0

theorem encode_injective : Function.Injective encode := fun _ _ h =>
  Except.ok.inj ((decode_eq_ok_iff.2 h).symm.trans (decode_eq_ok_iff.2 rfl))

/-! ### Texts with halves -/

variable {escape : Half → Option UInt8} {l : List Rune}

theorem bytesFrom_append_char (offset : Nat) (c : Char) :
    bytesFrom escape offset (l ++ [.char c]) =
      (bytesFrom escape offset l).map (· ++ String.utf8EncodeChar c) := by
  induction l generalizing offset with
  | nil => exact congrArg Except.ok (List.append_nil _)
  | cons r rest ih =>
    have hmap (front : List UInt8) (x : Except Lone (List UInt8)) :
        (x.map (· ++ String.utf8EncodeChar c)).map (front ++ ·) =
          (x.map (front ++ ·)).map (· ++ String.utf8EncodeChar c) := by
      cases x with
      | error l => rfl
      | ok bytes => exact congrArg Except.ok (List.append_assoc ..).symm
    cases r with
    | char d => exact (congrArg (Except.map _) (ih _)).trans (hmap _ _)
    | half d =>
      rw [List.cons_append, bytesFrom, bytesFrom]
      split
      · next b _ => exact (congrArg (Except.map _) (ih _)).trans (hmap [b] _)
      · -- The row of halves that is reported ends before the new character.
        have hrun : (rest ++ [Rune.char c]).takeWhile Rune.isHalf = rest.takeWhile Rune.isHalf := by
          rw [List.takeWhile_append]
          split
          · next hall =>
            exact (List.append_nil _).trans (List.takeWhile_prefix _ |>.eq_of_length hall).symm
          · rfl
        rw [hrun]
        rfl

theorem bytesFrom_eq_ok_iff {offset : Nat} :
    bytesFrom (fun _ => none) offset l = .ok bytes ↔ ∃ s, l = s.map .char ∧ encode s = bytes := by
  induction l generalizing offset bytes with
  | nil =>
    constructor
    · intro h
      exact ⟨[], rfl, Except.ok.inj h⟩
    · rintro ⟨s, hs, rfl⟩
      rw [List.map_eq_nil_iff.1 hs.symm]
      rfl
  | cons r rest ih =>
    cases r with
    | char c =>
      rw [bytesFrom, Outcome.map_eq_ok_iff]
      constructor
      · rintro ⟨more, hmore, rfl⟩
        obtain ⟨s, rfl, rfl⟩ := ih.1 hmore
        exact ⟨c :: s, rfl, rfl⟩
      · rintro ⟨s, hs, rfl⟩
        obtain ⟨d, s, rfl, hd, rfl⟩ := List.map_eq_cons_iff.1 hs.symm
        cases hd
        exact ⟨encode s, ih.2 ⟨s, rfl, rfl⟩, rfl⟩
    | half h =>
      refine iff_of_false nofun ?_
      rintro ⟨s, hs, -⟩
      obtain ⟨d, _, -, hd, -⟩ := List.map_eq_cons_iff.1 hs.symm
      cases hd

end ApiPrep.Text.Utf8

namespace ApiPrep.Text

variable {s t : Text} {bytes : List UInt8}

theorem bytes_eq_ok_iff :
    s.bytes = .ok bytes ↔ ∃ l, s.toList = l.map .char ∧ Utf8.encode l = bytes :=
  Utf8.bytesFrom_eq_ok_iff

theorem bytes_ofString (s : String) : (ofString s).bytes = .ok (Utf8.encode s.toList) :=
  bytes_eq_ok_iff.2 ⟨s.toList, rfl, rfl⟩

theorem bytes_inj (hs : s.bytes = .ok bytes) (ht : t.bytes = .ok bytes) : s = t := by
  obtain ⟨l, hl, rfl⟩ := bytes_eq_ok_iff.1 hs
  obtain ⟨l', hl', h⟩ := bytes_eq_ok_iff.1 ht
  rw [Utf8.encode_injective h, ← hl] at hl'
  exact toList_injective hl'.symm

theorem isWhole_iff : s.isWhole = true ↔ ∀ c ∈ s.toList, c.isHalf = false := by
  simp only [isWhole, List.all_eq_true, Bool.not_eq_true']

theorem isWhole_iff_chars : s.isWhole = true ↔ ∃ l : List Char, s.toList = l.map .char := by
  rw [isWhole_iff]
  constructor
  · intro h
    have hchars : s.toList ∈ Set.range (List.map Rune.char) := by
      rw [Set.range_list_map]
      intro c hc
      cases c with
      | char d => exact ⟨d, rfl⟩
      | half d => exact absurd (h _ hc) Bool.noConfusion
    obtain ⟨l, hl⟩ := hchars
    exact ⟨l, hl.symm⟩
  · rintro ⟨l, hl⟩ c hc
    rw [hl] at hc
    obtain ⟨c, -, rfl⟩ := List.mem_map.1 hc
    rfl

theorem isWhole_append (s t : Text) : (s ++ t).isWhole = (s.isWhole && t.isWhole) := by
  rw [isWhole, toList_append, List.all_append]
  rfl

theorem isWhole_iff_bytes : s.isWhole = true ↔ ∃ bytes, s.bytes = .ok bytes := by
  rw [isWhole_iff_chars]
  constructor
  · rintro ⟨l, hl⟩
    exact ⟨_, bytes_eq_ok_iff.2 ⟨l, hl, rfl⟩⟩
  · rintro ⟨bytes, h⟩
    obtain ⟨l, hl, -⟩ := bytes_eq_ok_iff.1 h
    exact ⟨l, hl⟩

theorem bytes_append_char (s : Text) (c : Char) :
    (s ++ ⟨[.char c]⟩).bytes = s.bytes.map (· ++ String.utf8EncodeChar c) :=
  Utf8.bytesFrom_append_char 0 c

/-- The bytes of the characters in a text, whatever else is in it. -/
def solid (l : List Rune) : List UInt8 :=
  l.flatMap fun
    | .char c => String.utf8EncodeChar c
    | .half _ => []

theorem solid_append (l l' : List Rune) : solid (l ++ l') = solid l ++ solid l' :=
  List.flatMap_append

theorem bytes_of_isWhole (h : s.isWhole = true) : s.bytes = .ok (solid s.toList) := by
  obtain ⟨l, hl⟩ := isWhole_iff_chars.1 h
  refine bytes_eq_ok_iff.2 ⟨l, hl, ?_⟩
  rw [hl, solid, List.flatMap_map]
  rfl

end ApiPrep.Text
