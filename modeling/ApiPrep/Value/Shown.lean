import ApiPrep.Value
import ApiPrep.Decimal.Layout
import ApiPrep.Text.Quoted

namespace ApiPrep

def shownFloat : Decimal.Layout := ⟨-4, 16, 2, "inf", "nan"⟩

def shownOffset (minutes : Int) : String :=
  if minutes = 0 then "datetime.timezone.utc" else s!"datetime.timezone({spanText minutes})"

def Date.shown (d : Date) : Text := s!"datetime.date({d.year}, {d.month}, {d.day})"

def Moment.shown (t : Moment) : Text :=
  let fraction : List Text := if t.micro = 0 then [] else [toString t.micro]
  let seconds : List Text :=
    if t.second = 0 ∧ t.micro = 0 then [] else ↑(toString t.second) :: fraction
  let zone : List Text := t.offset.toList.map fun minutes => s!"tzinfo={shownOffset minutes}"
  let fields : List Text :=
    [t.date.year, t.date.month, t.date.day, t.hour, t.minute].map fun n => toString n
  "datetime.datetime(" ++ Text.intercalate ", " (fields ++ seconds ++ zone) ++ ")"

def Scalar.shown : Scalar → Text
  | .null => "None"
  | .bool b => if b then "True" else "False"
  | .int n => toString n
  | .float x => shownFloat.write x
  | .text s => Text.quoted s
  | .date d => d.shown
  | .moment t => t.shown
  | .bytes content => Text.quotedBytes content

/-- A collection as it is spelled out at a place within it. -/
def Value.ellipsis : Value → Text
  | .map _ => "\x7b...\x7d"
  | .pair .. => "(...)"
  | _ => "[...]"

mutual

/-- A value spelled out at a place within marked collections. -/
def Value.shownWithin (around : List (Nat × Text)) : Value → Text
  | .scalar s => s.shown
  | .list items => "[" ++ Text.intercalate ", " (shownItems around items) ++ "]"
  | .map entries => "\x7b" ++ Text.intercalate ", " (shownEntries around entries) ++ "\x7d"
  | .set [] => "set()"
  | .set members => "\x7b" ++ Text.intercalate ", " (members.map Scalar.shown) ++ "\x7d"
  | .pair key value => "(" ++ key.shownWithin around ++ ", " ++ value.shownWithin around ++ ")"
  | .marked mark v =>
    match around.lookup mark with
    | some ellipsis => ellipsis
    | none => v.shownWithin ((mark, v.ellipsis) :: around)
  | .again mark => (around.lookup mark).getD "..."

def shownItems (around : List (Nat × Text)) : List Value → List Text
  | [] => []
  | item :: rest => item.shownWithin around :: shownItems around rest

def shownEntries (around : List (Nat × Text)) : List (Scalar × Value) → List Text
  | [] => []
  | (key, value) :: rest =>
    (key.shown ++ ": " ++ value.shownWithin around) :: shownEntries around rest

end

def Value.shown (value : Value) : Text := value.shownWithin []

/-- A value as plain text: a text is itself, a date has its usual form. -/
def Value.plain : Value → Text
  | .scalar (.text s) => s
  | .scalar (.date d) => d.iso
  | .scalar (.moment t) => t.iso " "
  | value => value.shown

end ApiPrep
