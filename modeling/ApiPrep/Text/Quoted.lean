import ApiPrep.Text.Printable

namespace ApiPrep.Text

def hex (width n : Nat) : List Rune :=
  let digits := (Nat.toDigits 16 n).map Rune.char
  List.replicate (width - digits.length) (.char '0') ++ digits

def quotedChar (quote c : Rune) : List Rune :=
  if c = quote ∨ c = '\\' then ['\\', c]
  else if c = '\t' then ['\\', 't']
  else if c = '\n' then ['\\', 'n']
  else if c = '\r' then ['\\', 'r']
  else if isPrintable c then [c]
  else if c.toNat < 0x100 then '\\' :: 'x' :: hex 2 c.toNat
  else if c.toNat < 0x10000 then '\\' :: 'u' :: hex 4 c.toNat
  else '\\' :: 'U' :: hex 8 c.toNat

/-- Single quotes serve unless the text holds one and no double quote. -/
def quoteFor (s : List Rune) : Rune :=
  if s.contains '\x27' && !s.contains '\x22' then '\x22' else '\x27'

/-- A text in quotes, with invisible characters spelled out. -/
def quoted (s : Text) : Text :=
  let quote := quoteFor s.toList
  Text.ofList (quote :: (s.toList.flatMap (quotedChar quote) ++ [quote]))

def quotedByte (quote : Rune) (b : UInt8) : List Rune :=
  let c := Rune.ofNat b.toNat
  if c = quote ∨ c = '\\' then ['\\', c]
  else if c = '\t' then ['\\', 't']
  else if c = '\n' then ['\\', 'n']
  else if c = '\r' then ['\\', 'r']
  else if 0x20 ≤ b ∧ b < 0x7F then [c]
  else '\\' :: 'x' :: hex 2 b.toNat

def quotedBytes (content : List UInt8) : Text :=
  let quote := quoteFor (content.map fun b => Rune.ofNat b.toNat)
  Text.ofList ('b' :: quote :: (content.flatMap (quotedByte quote) ++ [quote]))

end ApiPrep.Text
