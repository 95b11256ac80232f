namespace ApiPrep

structure Date where
  year : Nat
  month : Nat
  day : Nat
deriving DecidableEq, Repr, Inhabited

structure Moment where
  date : Date
  hour : Nat
  minute : Nat
  second : Nat
  micro : Nat
  offset : Option Int
deriving DecidableEq, Repr, Inhabited

inductive CalendarFault where
  | year (value : Nat)
  | month
  | day
  | hour
  | minute
  | second
  | offset (minutes : Int)
deriving DecidableEq, Repr

def padded (width n : Nat) : String :=
  let digits := Nat.toDigits 10 n
  String.ofList (List.replicate (width - digits.length) '0' ++ digits)

def spanText (minutes : Int) : String :=
  let seconds := minutes * 60
  let days := seconds.fdiv 86400
  let rest := seconds.fmod 86400
  let fields := (if days = 0 then [] else [s!"days={days}"]) ++
    (if rest = 0 then [] else [s!"seconds={rest}"])
  "datetime.timedelta(" ++ (if fields.isEmpty then "0" else ", ".intercalate fields) ++ ")"

def CalendarFault.message : CalendarFault → String
  | .year value => s!"year {value} is out of range"
  | .month => "month must be in 1..12"
  | .day => "day is out of range for month"
  | .hour => "hour must be in 0..23"
  | .minute => "minute must be in 0..59"
  | .second => "second must be in 0..59"
  | .offset minutes =>
    "offset must be a timedelta strictly between -timedelta(hours=24) and timedelta(hours=24), not "
      ++ spanText minutes ++ "."

def leapYear (year : Nat) : Bool := year % 4 == 0 && (year % 100 != 0 || year % 400 == 0)

def daysIn (year month : Nat) : Nat :=
  if month = 2 then (if leapYear year then 29 else 28)
  else if month = 4 ∨ month = 6 ∨ month = 9 ∨ month = 11 then 30
  else 31

def Date.make? (year month day : Nat) : Except CalendarFault Date :=
  if year < 1 ∨ 9999 < year then .error (.year year)
  else if month < 1 ∨ 12 < month then .error .month
  else if day < 1 ∨ daysIn year month < day then .error .day
  else .ok ⟨year, month, day⟩

def Moment.make? (year month day hour minute second micro : Nat) (offset : Option Int) :
    Except CalendarFault Moment := do
  if let some minutes := offset then
    if minutes ≤ -1440 ∨ 1440 ≤ minutes then throw (.offset minutes)
  let date ← Date.make? year month day
  if 23 < hour then throw .hour
  if 59 < minute then throw .minute
  if 59 < second then throw .second
  return ⟨date, hour, minute, second, micro, offset⟩

/-- Days from the first of January of the year 1. -/
def Date.dayNumber (d : Date) : Int :=
  let past := d.year - 1
  let months := (List.range (d.month - 1)).foldl (fun days m => days + daysIn d.year (m + 1)) 0
  ((past * 365 + past / 4 - past / 100 + past / 400 + months + d.day - 1 : Nat) : Int)

def Moment.instant? (t : Moment) : Option Int :=
  t.offset.map fun minutes =>
    t.date.dayNumber * 86400 + t.hour * 3600 + t.minute * 60 + t.second - minutes * 60

/-- Two moments are the same if both offsets are known and the instants agree, or if both are
unknown and the readings agree. -/
def Moment.same (s t : Moment) : Bool :=
  match s.instant?, t.instant? with
  | some a, some b => a == b && s.micro == t.micro
  | none, none => s == t
  | _, _ => false

def Date.iso (d : Date) : String := s!"{padded 4 d.year}-{padded 2 d.month}-{padded 2 d.day}"

def offsetText (minutes : Int) : String :=
  (if minutes < 0 then "-" else "+") ++ padded 2 (minutes.natAbs / 60) ++ ":" ++
    padded 2 (minutes.natAbs % 60)

/-- Date and time joined by `sep`, the fraction and the offset only where there is one. -/
def Moment.iso (sep : String) (t : Moment) : String :=
  t.date.iso ++ sep ++ padded 2 t.hour ++ ":" ++ padded 2 t.minute ++ ":" ++ padded 2 t.second ++
    (if t.micro = 0 then "" else "." ++ padded 6 t.micro) ++ (t.offset.map offsetText).getD ""

end ApiPrep
