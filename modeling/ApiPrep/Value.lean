import ApiPrep.Text
import ApiPrep.Calendar
import ApiPrep.Decimal.Shortest

namespace ApiPrep

inductive Scalar where
  | null
  | bool (b : Bool)
  | int (n : Int)
  | float (x : Float)
  | text (s : Text)
  | date (d : Date)
  | moment (t : Moment)
  | bytes (content : List UInt8)
deriving DecidableEq

/-- What a document holds. Mappings keep the order in which their keys were first given. -/
inductive Value where
  | scalar (s : Scalar)
  | list (items : List Value)
  | map (entries : List (Scalar × Value))
  | set (members : List Scalar)
  | pair (key value : Value)
  /-- A collection that is known by a number, since it may stand in several places. -/
  | marked (mark : Nat) (collection : Value)
  /-- The collection of a mark, at a place within it. -/
  | again (mark : Nat)

abbrev Entries := List (Scalar × Value)

@[match_pattern] abbrev Value.null : Value := .scalar .null
@[match_pattern] abbrev Value.bool (b : Bool) : Value := .scalar (.bool b)
@[match_pattern] abbrev Value.int (n : Int) : Value := .scalar (.int n)
@[match_pattern] abbrev Value.float (x : Float) : Value := .scalar (.float x)
@[match_pattern] abbrev Value.text (s : Text) : Value := .scalar (.text s)

instance : Inhabited Value := ⟨.null⟩

def Scalar.integer? : Scalar → Option Int
  | .bool b => some (if b then 1 else 0)
  | .int n => some n
  | .float x =>
    match Decimal.parts x with
    | .finite negative m q =>
      let size := m * Nat.pow 2 q.toNat
      let unit := Nat.pow 2 (-q).toNat
      if size % unit = 0 then some (if negative then -(size / unit) else (size / unit : Nat))
      else none
    | _ => none
  | _ => none

/-- Whether two scalars are one key: numbers by their worth, moments by their instant, all
else by equality. What is no number is no other key. -/
def Scalar.same (a b : Scalar) : Bool :=
  match a, b with
  | .float x, .float y => x == y
  | .moment s, .moment t => s.same t
  | a, b =>
    match a.integer?, b.integer? with
    | some m, some n => m == n
    | none, none => a == b
    | _, _ => false

namespace Entries

/-- Gives a key a value: a known key keeps its spelling and its place. -/
def put (entries : Entries) (key : Scalar) (value : Value) : Entries :=
  match entries with
  | [] => [(key, value)]
  | (k, v) :: rest => if k.same key then (k, value) :: rest else (k, v) :: put rest key value

def ofList (pairs : List (Scalar × Value)) : Entries :=
  pairs.foldl (fun entries pair => entries.put pair.1 pair.2) []

def get? (entries : Entries) (key : Text) : Option Value :=
  match entries with
  | [] => none
  | (.text k, v) :: rest => if k = key then some v else get? rest key
  | _ :: rest => get? rest key

def has (entries : Entries) (key : Text) : Bool := (entries.get? key).isSome

def merge (below above : Entries) : Entries :=
  above.foldl (fun entries pair => entries.put pair.1 pair.2) below

end Entries

/-- Whether a value counts as given: not null, false, zero or empty. -/
def Value.given : Value → Bool
  | .scalar .null => false
  | .scalar (.bool b) => b
  | .scalar (.int n) => n ≠ 0
  | .scalar (.float x) => !(x == 0)
  | .scalar (.text s) => s ≠ ""
  | .scalar (.bytes content) => !content.isEmpty
  | .scalar _ => true
  | .list items => !items.isEmpty
  | .map entries => !entries.isEmpty
  | .set members => !members.isEmpty
  | .pair .. => true
  | .marked _ collection => collection.given
  | .again _ => true

def Value.kind : Value → Text
  | .scalar .null => "NoneType"
  | .scalar (.bool _) => "bool"
  | .scalar (.int _) => "int"
  | .scalar (.float _) => "float"
  | .scalar (.text _) => "str"
  | .scalar (.date _) => "date"
  | .scalar (.moment _) => "datetime"
  | .scalar (.bytes _) => "bytes"
  | .list _ => "list"
  | .map _ => "dict"
  | .set _ => "set"
  | .pair .. => "tuple"
  | .marked _ collection => collection.kind
  | .again _ => "object"

end ApiPrep
