import ApiPrep.Text.Blank
import ApiPrep.Text.Pieces
import ApiPrep.Text.Utf8

namespace ApiPrep.Text

inductive Charset where
  | utf8
  /-- As `utf8`, but a byte order mark at the start is no part of the text. -/
  | markedUtf8
  | ascii
  | latin
  | western
  /-- Units of two bytes; where no order is known, a mark tells it or the low byte is first. -/
  | utf16 (bigEndian : Option Bool)
deriving DecidableEq, Repr

namespace Charset

/-- What stands for bytes that are no character. -/
def unknown : Rune := '\ufffd'

def names : List (Text × Charset) :=
  (["utf_8", "utf8", "u8", "utf", "utf8_ucs2", "utf8_ucs4", "cp65001"].map
      (Text.ofString ·, utf8)) ++
    (["utf_8_sig"].map (Text.ofString ·, markedUtf8)) ++
    (["ascii", "646", "ansi_x3.4_1968", "ansi_x3_4_1968", "ansi_x3.4_1986", "cp367", "csascii",
      "ibm367", "iso646_us", "iso_646.irv_1991", "iso_ir_6", "us", "us_ascii"].map
        (Text.ofString ·, ascii)) ++
    (["latin_1", "8859", "cp819", "csisolatin1", "ibm819", "iso8859", "iso8859_1", "iso_8859_1",
      "iso_8859_1_1987", "iso_ir_100", "l1", "latin", "latin1"].map (Text.ofString ·, latin)) ++
    (["cp1252", "1252", "windows_1252"].map (Text.ofString ·, western)) ++
    (["utf_16", "u16", "utf16"].map (Text.ofString ·, utf16 none)) ++
    (["utf_16_le", "unicodelittleunmarked", "utf_16le"].map
        (Text.ofString ·, utf16 (some false))) ++
    (["utf_16_be", "unicodebigunmarked", "utf_16be"].map (Text.ofString ·, utf16 (some true)))

/-- A name in lower case, with one bar for each stretch of other signs within it. -/
def normalName (name : List Rune) : Text :=
  let parts := splitBy (fun (c : Rune) => !(c.isAlphanum || c == '.')) (name.map Rune.toLower)
  Text.intercalate "_" ((parts.filter (!·.isEmpty)).map Text.ofList)

def ofName? (name : List Rune) : Option Charset :=
  if name.all (·.toNat < 0x80) then names.lookup (normalName name) else none

def pieces (quoted : Bool) : List Rune → List (List Rune)
  | [] => [[]]
  | '\\' :: '"' :: rest =>
    match pieces quoted rest with
    | piece :: others => ('\\' :: '"' :: piece) :: others
    | [] => [['\\', '"']]
  | c :: rest =>
    if c = ';' ∧ !quoted then [] :: pieces quoted rest
    else
      match pieces (quoted != (c == '"')) rest with
      | piece :: others => (c :: piece) :: others
      | [] => [[c]]

def unquoted (s : List Rune) : List Rune :=
  let inner := (s.drop 1).dropLast
  if s.length < 2 then s
  else if s.head? = some (.char '"') ∧ s.getLast? = some (.char '"') then unescaped inner
  else if s.head? = some (.char '<') ∧ s.getLast? = some (.char '>') then inner
  else s
where
  unescaped : List Rune → List Rune
    | '\\' :: c :: rest =>
      if c = '\\' ∨ c = '"' then c :: unescaped rest else '\\' :: unescaped (c :: rest)
    | c :: rest => c :: unescaped rest
    | [] => []

def ofType? (contentType : Text) : Option Charset :=
  let named := (pieces false contentType.toList).filterMap fun piece =>
    match piece.dropWhile (· != .char '=') with
    | _ :: value =>
      if (trim (piece.takeWhile (· != .char '='))).map Rune.toLower = "charset".runes then
        some (unquoted (trim value))
      else none
    | [] => none
  named.head?.bind ofName?

def decodeUtf8 : (skip : Nat) → List UInt8 → List Rune
  | _, [] => []
  | skip + 1, _ :: rest => decodeUtf8 skip rest
  | 0, a :: rest =>
    match Utf8.found a rest with
    | .ok (c, more) => c :: decodeUtf8 more rest
    | .error (_, size) => unknown :: decodeUtf8 (size - 1) rest

def westernSigns : List Rune :=
  "€\ufffd‚ƒ„…†‡ˆ‰Š‹Œ\ufffdŽ\ufffd\ufffd‘’“”•–—˜™š›œ\ufffdžŸ".runes

def decodeWestern (b : UInt8) : Rune :=
  if 0x80 ≤ b ∧ b < 0xA0 then westernSigns.getD (b.toNat - 0x80) unknown else Rune.ofNat b.toNat

/-- The characters of units; a half of a pair that stands alone is no character. -/
def decodeUnits : List Nat → List Rune
  | [] => []
  | u :: rest =>
    if 0xD800 ≤ u ∧ u < 0xDC00 then
      match rest with
      | v :: more =>
        if 0xDC00 ≤ v ∧ v < 0xE000 then
          Rune.ofNat (0x10000 + (u - 0xD800) * 0x400 + (v - 0xDC00)) :: decodeUnits more
        else unknown :: decodeUnits (v :: more)
      | [] => [unknown]
    else if 0xDC00 ≤ u ∧ u < 0xE000 then unknown :: decodeUnits rest
    else Rune.ofNat u :: decodeUnits rest

/-- Bytes two by two; one that is left over is half of a unit that is no character. -/
def units (bigEndian : Bool) : List UInt8 → List Nat
  | a :: b :: rest =>
    (if bigEndian then a.toNat * 0x100 + b.toNat else b.toNat * 0x100 + a.toNat) ::
      units bigEndian rest
  | [_] => [0xDC00]
  | [] => []

def decode : Charset → List UInt8 → List Rune
  | utf8, bytes => decodeUtf8 0 bytes
  | markedUtf8, 0xEF :: 0xBB :: 0xBF :: rest => decodeUtf8 0 rest
  | markedUtf8, bytes => decodeUtf8 0 bytes
  | ascii, bytes => bytes.map fun b => if b < 0x80 then Rune.ofNat b.toNat else unknown
  | latin, bytes => bytes.map fun b => Rune.ofNat b.toNat
  | western, bytes => bytes.map decodeWestern
  | utf16 (some bigEndian), bytes => decodeUnits (units bigEndian bytes)
  | utf16 none, 0xFE :: 0xFF :: rest => decodeUnits (units true rest)
  | utf16 none, 0xFF :: 0xFE :: rest => decodeUnits (units false rest)
  | utf16 none, bytes => decodeUnits (units false bytes)

end Charset

end ApiPrep.Text
