import ApiPrep.Text

namespace ApiPrep.Cli

inductive Misuse where
  | noArguments
  | unknownOption (name : Text)
  | missingValue (name : Text)
  | needlessValue (name : Text)
  | noCommand
  | unknownCommand (name : Text)
  | missingArgument (name : Text)
  | extraArguments (names : List Text)
deriving DecidableEq, Repr

def Misuse.message : Misuse → Text
  | .noArguments => "Nothing to do."
  | .unknownOption name => "No such option: " ++ name
  | .missingValue name => "Option " ++ name ++ " requires a value."
  | .needlessValue name => "Option " ++ name ++ " does not take a value."
  | .noCommand => "Missing command."
  | .unknownCommand name => "No such command: " ++ name
  | .missingArgument name => "Missing argument: " ++ name
  | .extraArguments names => "Unexpected arguments: " ++ Text.intercalate " " names

/-- What an option says, by itself or about the value that comes with it. -/
inductive Switch (α : Type) where
  | alone (a : α)
  | valued (f : Text → α)

structure Grammar (α : Type) where
  word : Text → Option (Switch α)
  letter : Rune → Option (Switch α)

/-- What one argument says, and what it says about a value that is still to come. -/
structure Saying (α : Type) where
  said : List α
  pending : Option (Text → α)

structure Line (α : Type) where
  options : List α
  rest : List Text

namespace Grammar

variable {α : Type}

/-- Letters after a dash. What follows the letter of a valued option is its value. -/
def ofLetters (g : Grammar α) : List Rune → Except Misuse (Saying α)
  | [] => .ok ⟨[], none⟩
  | c :: rest =>
    match g.letter c with
    | none => .error (.unknownOption (Text.ofList ['-', c]))
    | some (.alone a) => (g.ofLetters rest).map fun s => { s with said := a :: s.said }
    | some (.valued f) =>
      .ok (if rest.isEmpty then ⟨[], some f⟩ else ⟨[f (Text.ofList rest)], none⟩)

def ofWord (g : Grammar α) (text : List Rune) : Except Misuse (Saying α) :=
  let name := Text.ofList (text.takeWhile (· != '='))
  match g.word name, text.dropWhile (· != .char '=') with
  | none, _ => .error (.unknownOption ("--" ++ name))
  | some (.alone a), [] => .ok ⟨[a], none⟩
  | some (.alone _), _ :: _ => .error (.needlessValue ("--" ++ name))
  | some (.valued f), [] => .ok ⟨[], some f⟩
  | some (.valued f), _ :: value => .ok ⟨[f (Text.ofList value)], none⟩

/-- What an argument says if it is written as options are; a dash alone is not. -/
def ofArgument (g : Grammar α) : List Rune → Option (Except Misuse (Saying α))
  | '-' :: '-' :: text => some (g.ofWord text)
  | '-' :: c :: rest => some (g.ofLetters (c :: rest))
  | _ => none

/-- Reads a command line. Two dashes end the options, and so does the first other argument
where the two may not be `mixed`. -/
def read (g : Grammar α) (mixed : Bool) : List Text → Except Misuse (Line α)
  | [] => .ok ⟨[], []⟩
  | arg :: rest =>
    if arg = "--" then .ok ⟨[], rest⟩
    else
      match g.ofArgument arg.toList with
      | none =>
        if mixed then (g.read mixed rest).map fun l => { l with rest := arg :: l.rest }
        else .ok ⟨[], arg :: rest⟩
      | some (.error m) => .error m
      | some (.ok ⟨said, none⟩) =>
        (g.read mixed rest).map fun l => { l with options := said ++ l.options }
      | some (.ok ⟨said, some f⟩) =>
        match rest with
        | [] => .error (.missingValue arg)
        | value :: rest =>
          (g.read mixed rest).map fun l => { l with options := said ++ f value :: l.options }

end Grammar

end ApiPrep.Cli
