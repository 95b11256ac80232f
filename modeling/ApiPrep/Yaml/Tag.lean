import ApiPrep.Text.Pieces

namespace ApiPrep.Yaml

inductive Tag where
  | null
  | bool
  | int
  | float
  | timestamp
  | str
  | binary
  | seq
  | map
  | set
  | omap
  | pairs
  | merge
  | value
  | unknown
deriving DecidableEq, Repr

namespace Tag

def core : List Rune := "tag:yaml.org,2002:".runes

def ofName (name : List Rune) : Tag :=
  match Text.afterLead? core name with
  | none => .unknown
  | some short =>
    let known : List (Text × Tag) := [("null", null), ("bool", bool), ("int", int),
      ("float", float), ("timestamp", timestamp), ("str", str), ("binary", binary), ("seq", seq),
      ("map", map), ("set", set), ("omap", omap), ("pairs", pairs), ("merge", merge), ("value", value)]
    (known.lookup (Text.ofList short)).getD .unknown

def nullWords : List Text := ["", "~", "null", "Null", "NULL"]

def truthWords : List (String × Bool) :=
  [("yes", true), ("no", false), ("true", true), ("false", false), ("on", true), ("off", false)]

def casings (word : String) : List Text := [word, word.capitalize, word.toUpper]

def isDigitOrBar (c : Rune) : Bool := c.isDigit || c == '_'

def isRun (p : Rune → Bool) (s : List Rune) : Bool := !s.isEmpty && s.all p

def unsigned : List Rune → List Rune
  | '-' :: rest => rest
  | '+' :: rest => rest
  | s => s

def isSixtieth : List Rune → Bool
  | [d] => d.isDigit
  | [t, d] => t.isDigit && t ≤ '5' && d.isDigit
  | _ => false

def startsRun (p : Rune → Bool) : List Rune → Bool
  | d :: rest => p d && rest.all isDigitOrBar
  | [] => false

/-- Whether pieces count hours, minutes and seconds: a first number and sixtieths after it. -/
def isClock (p : Rune → Bool) : List (List Rune) → Bool
  | first :: second :: rest => startsRun p first && (second :: rest).all isSixtieth
  | _ => false

def isNonZeroDigit (c : Rune) : Bool := c.isDigit && c != '0'

def isInt (s : List Rune) : Bool :=
  let body := unsigned s
  let ofMark := match body with
    | '0' :: 'b' :: rest => isRun (fun c => c == '0' || c == '1' || c == '_') rest
    | '0' :: 'x' :: rest =>
      isRun (fun c => isDigitOrBar c || ('a' ≤ c && c ≤ 'f') || ('A' ≤ c && c ≤ 'F')) rest
    | '0' :: rest => rest.isEmpty || isRun (fun c => c == '_' || ('0' ≤ c && c ≤ '7')) rest
    | _ => startsRun isNonZeroDigit body
  ofMark || isClock isNonZeroDigit (Text.splitBy (· == ':') body)

def isPower : List Rune → Bool
  | [] => true
  | e :: sign :: rest =>
    (e == 'e' || e == 'E') && (sign == '-' || sign == '+') && isRun Rune.isDigit rest
  | _ => false

def isPlaces (s : List Rune) : Bool := isPower (s.dropWhile isDigitOrBar)

def isFloat (s : List Rune) : Bool :=
  let body := unsigned s
  let whole := body.takeWhile (· != .char '.')
  match body.dropWhile (· != .char '.') with
  | '.' :: places =>
    (startsRun Rune.isDigit whole && isPlaces places) ||
      (s == body && whole.isEmpty && (places.head?.map Rune.isDigit).getD false &&
        isPlaces places) ||
      (isClock Rune.isDigit (Text.splitBy (· == .char ':') whole) && places.all isDigitOrBar) ||
      (whole.isEmpty && ["inf", "Inf", "INF"].any (places == ·.runes)) ||
      (s == body && whole.isEmpty && ["nan", "NaN", "NAN"].any (places == ·.runes))
  | _ => false

end Tag

structure Timestamp where
  year : List Rune
  month : List Rune
  day : List Rune
  time : Option (List Rune × List Rune × List Rune)
  fraction : List Rune
  zone : Option (Bool × List Rune × List Rune)
deriving DecidableEq, Repr

namespace Timestamp

/-- From `least` to `most` digits at the start of a text, as many as there are. -/
def digits? (least most : Nat) (s : List Rune) : Option (List Rune × List Rune) :=
  let run := (s.take most).takeWhile Rune.isDigit
  if run.length < least then none else some (run, s.drop run.length)

def sign? (c : Rune) : List Rune → Option (List Rune)
  | d :: rest => if c = d then some rest else none
  | [] => none

def isWhite (c : Rune) : Bool := c == ' ' || c == '\t'

def gap? : List Rune → Option (List Rune)
  | [] => none
  | c :: rest =>
    if c = 'T' ∨ c = 't' then some rest
    else if isWhite c then some (rest.dropWhile isWhite)
    else none

def zone? (s : List Rune) : Option (Option (Bool × List Rune × List Rune)) :=
  match s with
  | [] => some none
  | _ =>
    match s.dropWhile isWhite with
    | ['Z'] => some (some (false, [], []))
    | c :: rest =>
      if c = '+' ∨ c = '-' then do
        let (hours, rest) ← digits? 1 2 rest
        match rest with
        | [] => some (some (c == '-', hours, []))
        | _ => do
          let (minutes, rest) ← digits? 2 2 (← sign? ':' rest)
          if rest.isEmpty then some (some (c == '-', hours, minutes)) else none
      else none
    | [] => none

def ofText? (s : List Rune) : Option Timestamp := do
  let (year, s) ← digits? 4 4 s
  let (month, s) ← digits? 1 2 (← sign? '-' s)
  let (day, s) ← digits? 1 2 (← sign? '-' s)
  match s with
  | [] => return ⟨year, month, day, none, [], none⟩
  | _ =>
    let (hour, s) ← digits? 1 2 (← gap? s)
    let (minute, s) ← digits? 2 2 (← sign? ':' s)
    let (second, s) ← digits? 2 2 (← sign? ':' s)
    let (fraction, s) := match s with
      | '.' :: rest => (rest.takeWhile Rune.isDigit, rest.dropWhile Rune.isDigit)
      | s => ([], s)
    let zone ← zone? s
    return ⟨year, month, day, some (hour, minute, second), fraction, zone⟩

/-- Whether a timestamp is recognised where no tag is given: a day alone needs two digits for
its month and for itself. -/
def isPlain (t : Timestamp) : Bool :=
  t.time.isSome || (t.month.length == 2 && t.day.length == 2)

end Timestamp

def withoutBreak (s : List Rune) : List Rune :=
  if s.getLast? = some (.char '\n') then s.dropLast else s

def loneSigns : List Text := ["!", "&", "*"]

def Tag.ofPlain (s : List Rune) : Tag :=
  let word := Text.ofList s
  if (truthWords.flatMap fun w => casings w.1).contains word then .bool
  else if isFloat s then .float
  else if isInt s then .int
  else if word = "<<" then .merge
  else if nullWords.contains word then .null
  else if ((Timestamp.ofText? s).map (·.isPlain)).getD false then .timestamp
  else if word = "=" then .value
  else if loneSigns.contains word then .unknown
  else .str

end ApiPrep.Yaml
