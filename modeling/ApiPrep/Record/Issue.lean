import ApiPrep.Text

namespace ApiPrep.Record

/-- One step into a document: to the value of a key or to an item of a list. -/
inductive Step where
  | key (name : Text)
  | item (index : Nat)
deriving DecidableEq, Repr

inductive Complaint where
  | missing
  | noText
  | undecodable
  | noFlag
  | unclearFlag
  | noList
  | noTuple
  | noRecord (title : Text)
  | noOption (options : List Text)
  | refused (why : Text)
deriving DecidableEq, Repr

def Complaint.kind : Complaint → Text
  | .missing => "missing"
  | .noText => "string_type"
  | .undecodable => "string_unicode"
  | .noFlag => "bool_type"
  | .unclearFlag => "bool_parsing"
  | .noList => "list_type"
  | .noTuple => "tuple_type"
  | .noRecord _ => "model_type"
  | .noOption _ => "literal_error"
  | .refused _ => "value_error"

def alternatives : List Text → Text
  | [] => ""
  | [a] => "'" ++ a ++ "'"
  | [a, b] => "'" ++ a ++ "' or '" ++ b ++ "'"
  | a :: rest => "'" ++ a ++ "', " ++ alternatives rest

def Complaint.message : Complaint → Text
  | .missing => "Field required"
  | .noText => "Input should be a valid string"
  | .undecodable => "Input should be a valid string, unable to parse raw data as a unicode string"
  | .noFlag => "Input should be a valid boolean"
  | .unclearFlag => "Input should be a valid boolean, unable to interpret input"
  | .noList => "Input should be a valid list"
  | .noTuple => "Input should be a valid tuple"
  | .noRecord title => "Input should be a valid dictionary or instance of " ++ title
  | .noOption options => "Input should be " ++ alternatives options
  | .refused why => "Value error, " ++ why

structure Issue where
  path : List Step
  complaint : Complaint
deriving DecidableEq, Repr

structure Report where
  title : Text
  issues : List Issue
deriving DecidableEq, Repr

def Report.summary (r : Report) : Text :=
  let count := r.issues.length
  s!"{count} validation error" ++ (if count = 1 then "" else "s") ++ " for " ++ r.title

/-- A value that has been read, or all that stood in the way. -/
inductive Checked (α : Type) where
  | ok (a : α)
  | faulty (issues : List Issue)

namespace Checked

variable {α β : Type}

def refuse (c : Complaint) : Checked α := .faulty [⟨[], c⟩]

def map (f : α → β) : Checked α → Checked β
  | .ok a => .ok (f a)
  | .faulty issues => .faulty issues

/-- The issues of both sides are kept, those of the function first. -/
def seq (f : Checked (α → β)) (x : Checked α) : Checked β :=
  match f, x with
  | .ok f, .ok a => .ok (f a)
  | .ok _, .faulty issues => .faulty issues
  | .faulty issues, .ok _ => .faulty issues
  | .faulty issues, .faulty others => .faulty (issues ++ others)

instance : Applicative Checked where
  pure := .ok
  map := map
  seq f x := f.seq (x ())

def within (step : Step) : Checked α → Checked α
  | .ok a => .ok a
  | .faulty issues => .faulty (issues.map fun issue => { issue with path := step :: issue.path })

def report (title : Text) : Checked α → Except Report α
  | .ok a => .ok a
  | .faulty issues => .error ⟨title, issues⟩

theorem seq_eq_ok_iff {f : Checked (α → β)} {x : Checked α} {b : β} :
    f.seq x = .ok b ↔ ∃ g a, f = .ok g ∧ x = .ok a ∧ g a = b := by
  cases f <;> cases x <;> simp [seq]

theorem map_eq_ok_iff {f : α → β} {x : Checked α} {b : β} :
    x.map f = .ok b ↔ ∃ a, x = .ok a ∧ f a = b := by
  cases x <;> simp [map]

theorem within_eq_ok_iff {step : Step} {x : Checked α} {a : α} :
    x.within step = .ok a ↔ x = .ok a := by
  cases x <;> simp [within]

end Checked

end ApiPrep.Record
