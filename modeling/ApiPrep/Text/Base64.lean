import ApiPrep.Text

namespace ApiPrep.Text.Base64

def sextet? (c : Rune) : Option Nat :=
  if 'A' ≤ c ∧ c ≤ 'Z' then some (c.toNat - 65)
  else if 'a' ≤ c ∧ c ≤ 'z' then some (c.toNat - 71)
  else if '0' ≤ c ∧ c ≤ '9' then some (c.toNat + 4)
  else if c = '+' then some 62
  else if c = '/' then some 63
  else none

/-- The bytes that `count` of four characters have made so far. -/
def pending (count bits : Nat) : List UInt8 :=
  match count with
  | 2 => [(bits / 16).toUInt8]
  | 3 => [(bits / 1024).toUInt8, (bits / 4 % 256).toUInt8]
  | _ => []

/-- Decodes what follows `count` characters of a group of four, which carry `bits`, and `pads`
signs that fill a group. Characters that carry nothing are passed over. -/
def decodeFrom (count bits pads : Nat) : List Rune → Option (List UInt8)
  | [] => if count = 0 then some [] else none
  | c :: rest =>
    if c = '=' then
      if 2 ≤ count ∧ 4 ≤ count + pads + 1 then some (pending count bits)
      else decodeFrom count bits (if 2 ≤ count then pads + 1 else pads) rest
    else
      match sextet? c with
      | none => decodeFrom count bits pads rest
      | some n =>
        let bits := bits * 64 + n
        if count = 3 then
          (decodeFrom 0 0 0 rest).map fun bytes =>
            (bits / 65536).toUInt8 :: (bits / 256 % 256).toUInt8 :: (bits % 256).toUInt8 :: bytes
        else decodeFrom (count + 1) bits 0 rest

/-- The bytes that a text stands for: four characters for three bytes. The last group has to be
complete or filled. -/
def decode (s : List Rune) : Option (List UInt8) := decodeFrom 0 0 0 s

end ApiPrep.Text.Base64
