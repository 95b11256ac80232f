import ApiPrep.Text.Quoted

namespace ApiPrep.Text.Utf8

inductive Reason where
  | start
  | continuation
  | ending
deriving DecidableEq, Repr

def Reason.text : Reason → Text
  | .start => "invalid start byte"
  | .continuation => "invalid continuation byte"
  | .ending => "unexpected end of data"

structure Fault where
  reason : Reason
  byte : UInt8
  offset : Nat
  size : Nat
deriving DecidableEq, Repr

def Fault.message (f : Fault) : Text :=
  let place : Text :=
    if f.size = 1 then
      "byte 0x" ++ Text.ofList (hex 2 f.byte.toNat) ++ s!" in position {f.offset}"
    else s!"bytes in position {f.offset}-{f.offset + f.size - 1}"
  "'utf-8' codec can't decode " ++ place ++ ": " ++ f.reason.text

def isContinuation (b : UInt8) : Bool := 0x80 ≤ b && b ≤ 0xBF

/-- Whether `b` may stand second after the first byte of a character of three or four bytes:
no longer form than needed, no half of a pair, nothing past the last character. -/
def maySecond (first b : UInt8) : Bool :=
  isContinuation b && (first != 0xE0 || 0xA0 ≤ b) && (first != 0xED || b < 0xA0) &&
    (first != 0xF0 || 0x90 ≤ b) && (first != 0xF4 || b < 0x90)

def low (b : UInt8) : Nat := b.toNat % 0x40

/-- A character of two bytes, or what is wrong and how many bytes are. -/
def two (a : UInt8) : List UInt8 → Except (Reason × Nat) Char
  | [] => .error (.ending, 1)
  | b :: _ =>
    if isContinuation b then .ok (Char.ofNat (a.toNat % 0x20 * 0x40 + low b))
    else .error (.continuation, 1)

def three (a : UInt8) : List UInt8 → Except (Reason × Nat) Char
  | [] => .error (.ending, 1)
  | b :: rest =>
    if !maySecond a b then .error (.continuation, 1)
    else match rest with
      | [] => .error (.ending, 2)
      | c :: _ =>
        if isContinuation c then .ok (Char.ofNat ((a.toNat % 0x10 * 0x40 + low b) * 0x40 + low c))
        else .error (.continuation, 2)

def four (a : UInt8) : List UInt8 → Except (Reason × Nat) Char
  | [] => .error (.ending, 1)
  | b :: rest =>
    if !maySecond a b then .error (.continuation, 1)
    else match rest with
      | [] => .error (.ending, 2)
      | c :: rest =>
        if !isContinuation c then .error (.continuation, 2)
        else match rest with
          | [] => .error (.ending, 3)
          | d :: _ =>
            if isContinuation d then
              .ok (Char.ofNat
                (((a.toNat % 0x08 * 0x40 + low b) * 0x40 + low c) * 0x40 + low d))
            else .error (.continuation, 3)

def width? (a : UInt8) : Option Nat :=
  if a < 0x80 then some 1
  else if a < 0xC2 then none
  else if a < 0xE0 then some 2
  else if a < 0xF0 then some 3
  else if a < 0xF5 then some 4
  else none

/-- The character that starts with a byte, and how many of those after it belong to it. -/
def found (a : UInt8) (rest : List UInt8) : Except (Reason × Nat) (Char × Nat) :=
  match width? a with
  | some 1 => .ok (Char.ofNat a.toNat, 0)
  | some 2 => (two a rest).map (·, 1)
  | some 3 => (three a rest).map (·, 2)
  | some _ => (four a rest).map (·, 3)
  | none => .error (.start, 1)

/-- Decodes bytes of which the first `skip` belong to the character before; `offset` have
been passed. -/
def decodeFrom (offset : Nat) : (skip : Nat) → List UInt8 → Except Fault (List Char)
  | _, [] => .ok []
  | skip + 1, _ :: rest => decodeFrom (offset + 1) skip rest
  | 0, a :: rest =>
    match found a rest with
    | .ok (c, more) => (decodeFrom (offset + 1) more rest).map (c :: ·)
    | .error (reason, size) => .error ⟨reason, a, offset, size⟩

def encode (s : List Char) : List UInt8 := s.flatMap String.utf8EncodeChar

def decode (bytes : List UInt8) : Except Fault (List Char) := decodeFrom 0 0 bytes

/-- Halves in a row where characters are wanted: the first of them, where it stands, and how many
there are. -/
structure Lone where
  half : Half
  offset : Nat
  size : Nat
deriving DecidableEq, Repr

def Lone.message (l : Lone) : Text :=
  let place : Text :=
    if l.size = 1 then
      "character '\\u" ++ Text.ofList (hex 4 (Rune.half l.half).toNat) ++
        s!"' in position {l.offset}"
    else s!"characters in position {l.offset}-{l.offset + l.size - 1}"
  "'utf-8' codec can't encode " ++ place ++ ": surrogates not allowed"

/-- The bytes that stand for runes, of which `offset` have been passed. Only halves that `escape`
gives a byte have one. -/
def bytesFrom (escape : Half → Option UInt8) (offset : Nat) :
    List Rune → Except Lone (List UInt8)
  | [] => .ok []
  | .char c :: rest => (bytesFrom escape (offset + 1) rest).map (String.utf8EncodeChar c ++ ·)
  | .half h :: rest =>
    match escape h with
    | some b => (bytesFrom escape (offset + 1) rest).map (b :: ·)
    | none => .error ⟨h, offset, (rest.takeWhile Rune.isHalf).length + 1⟩

def byteOf? (h : Half) : Option UInt8 :=
  if 0x480 ≤ h.rank.val ∧ h.rank.val < 0x500 then some (h.rank.val - 0x400).toUInt8 else none

/-- The runes of the name of a file, of which the first `skip` bytes belong to the character
before. Halves stand for bytes that are no character. -/
def nameFrom : (skip : Nat) → List UInt8 → List Rune
  | _, [] => []
  | skip + 1, _ :: rest => nameFrom skip rest
  | 0, a :: rest =>
    match found a rest with
    | .ok (c, more) => c :: nameFrom more rest
    | .error _ => Rune.ofNat (0xDC00 + a.toNat) :: nameFrom 0 rest

end ApiPrep.Text.Utf8

namespace ApiPrep.Text

def bytes (s : Text) : Except Utf8.Lone (List UInt8) :=
  Utf8.bytesFrom (fun _ => none) 0 s.toList

def nameBytes (s : Text) : Except Utf8.Lone (List UInt8) := Utf8.bytesFrom Utf8.byteOf? 0 s.toList

def ofNameBytes (bytes : List UInt8) : Text := ⟨Utf8.nameFrom 0 bytes⟩

def escaped (s : Text) : Text :=
  ⟨s.toList.flatMap fun c => if c.isHalf then '\\' :: 'u' :: hex 4 c.toNat else [c]⟩

def unifyLines : List Char → List Char
  | [] => []
  | '\r' :: '\n' :: rest => '\n' :: unifyLines rest
  | '\r' :: rest => '\n' :: unifyLines rest
  | c :: rest => c :: unifyLines rest

end ApiPrep.Text
