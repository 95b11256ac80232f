import ApiPrep.Cli.Grammar

namespace ApiPrep.Cli

inductive GeneralOption where
  | version
  | help
  | json
  | plain
  | noColor
  | quiet
  | verbose
  | output (path : Text)
deriving DecidableEq, Repr

def generalOptions : Grammar GeneralOption where
  word name :=
    let words : List (Text × Switch GeneralOption) :=
      [("version", .alone .version), ("help", .alone .help), ("json", .alone .json),
        ("plain", .alone .plain), ("no-color", .alone .noColor), ("quiet", .alone .quiet),
        ("verbose", .alone .verbose), ("output", .valued .output)]
    words.lookup name
  letter
    | 'q' => some (.alone .quiet)
    | 'v' => some (.alone .verbose)
    | 'o' => some (.valued .output)
    | _ => none

inductive Command where
  | normalize
  | interpolate
  | catalog
deriving DecidableEq, Repr

def Command.name : Command → Text
  | .normalize => "normalize"
  | .interpolate => "rewrite"
  | .catalog => "catalog"

def Command.ofName? (name : Text) : Option Command :=
  [Command.normalize, .interpolate, .catalog].find? (·.name = name)

inductive CommandOption where
  | help
  | catalog (name : Text)
  | kebab (on : Bool)
deriving DecidableEq, Repr

def Command.takesCatalog : Command → Bool
  | .interpolate => false
  | _ => true

def Command.options (c : Command) : Grammar CommandOption where
  word name :=
    let catalog : List (Text × Switch CommandOption) :=
      if c.takesCatalog then [("catalog", .valued .catalog)] else []
    let kebab : List (Text × Switch CommandOption) :=
      if c = .normalize then
        [("kebab", .alone (.kebab true)), ("no-kebab", .alone (.kebab false))]
      else []
    let words : List (Text × Switch CommandOption) :=
      ("help", .alone .help) :: (catalog ++ kebab)
    words.lookup name
  letter
    | 'c' => if c.takesCatalog then some (.valued .catalog) else none
    | _ => none

structure General where
  /-- The format that is asked for; JSON goes before plain text. -/
  format : Option Text
  noColor : Bool
  quiet : Bool
  verbose : Bool
  file : Option Text
deriving DecidableEq, Repr

def General.ofOptions (options : List GeneralOption) : General where
  format :=
    if options.contains .json then some ("json" : Text)
    else if options.contains .plain then some "plain"
    else none
  noColor := options.contains .noColor
  quiet := options.contains .quiet
  verbose := options.contains .verbose
  file := options.reverse.findSome? fun
    | .output path => some path
    | _ => none

inductive Task where
  | help (c : Command)
  | normalize (source : Text) (catalog : Option Text) (kebab : Option Bool)
  | interpolate (path : Text)
  | catalog (name : Option Text)
deriving DecidableEq, Repr

def catalogOf (options : List CommandOption) : Option Text :=
  options.reverse.findSome? fun
    | .catalog name => some name
    | _ => none

def kebabOf (options : List CommandOption) : Option Bool :=
  options.reverse.findSome? fun
    | .kebab on => some on
    | _ => none

def Command.task (c : Command) (args : List Text) : Except Misuse Task := do
  let line ← c.options.read true args
  if line.options.contains .help then return .help c
  match c, line.rest with
  | .normalize, [source] => return .normalize source (catalogOf line.options) (kebabOf line.options)
  | .normalize, [] => throw (.missingArgument "SOURCE")
  | .normalize, _ :: extra => throw (.extraArguments extra)
  | .interpolate, [path] => return .interpolate path
  | .interpolate, [] => throw (.missingArgument "PATH")
  | .interpolate, _ :: extra => throw (.extraArguments extra)
  | .catalog, [] => return .catalog (catalogOf line.options)
  | .catalog, extra => throw (.extraArguments extra)

/-- What a command line asks for. The arguments of a command are read when it runs. -/
inductive Request where
  | version
  | help
  | command (g : General) (c : Command) (args : List Text)
deriving DecidableEq, Repr

def question? (options : List GeneralOption) : Option Request :=
  options.findSome? fun
    | .version => some .version
    | .help => some .help
    | _ => none

/-- What arguments ask for whose first names no command. They may still be a question. -/
def Request.ofStranger (name : Text) (args : List Text) : Except Misuse Request := do
  let line ← generalOptions.read false (name :: args)
  match question? line.options with
  | some request => return request
  | none => throw (.unknownCommand name)

def Request.ofArguments (args : List Text) : Except Misuse Request := do
  if args.isEmpty then throw .noArguments
  let line ← generalOptions.read false args
  match question? line.options, line.rest with
  | some request, _ => return request
  | none, [] => throw .noCommand
  | none, name :: args =>
    match Command.ofName? name with
    | some c => return .command (.ofOptions line.options) c args
    | none => ofStranger name args

end ApiPrep.Cli
