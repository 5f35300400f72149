import Flipbook.Command.Script

/-!
# Arguments

The command line is a subcommand with its options and one path. An option has a
long name behind two dashes, and may have a letter behind one; a value follows in
the next argument or in the same one, with or without an equals sign behind a
letter. A value of its own does not start with a dash. Two dashes end the options.

Arguments are read from left to right, up to the first that is wrong or asks for
help.
-/
namespace Flipbook.Command

/-! ## Options in general -/

/-- An option. -/
structure OptionSpec where
  long : String
  short : Option Char
  /-- Whether a value belongs to it. -/
  hasValue : Bool
deriving DecidableEq, Repr

/-- Why arguments are not read to their end. -/
inductive Stop where
  | misuse
  | help
  | version
deriving DecidableEq, Repr

/-- What is done with each part of the arguments: an option by its long name, with
its value where it has one, or a path. -/
structure Handler (α : Type) where
  option : String → String → α → Except Stop α
  path : String → α → Except Stop α

/-- Whether an argument is made up of options. A single dash is not. -/
def isOption (arg : String) : Bool := arg.startsWith "-" && arg ≠ "-"

/-- Reads a long option without its dashes. The text behind it tells whether the
next argument is its value. -/
def readLong {α : Type} (specs : List OptionSpec) (handler : Handler α) (text : List Char)
    (state : α) (next : Option String) : Except Stop (α × Bool) := do
  let (name, value) := match Text.cut '=' text with
    | some (name, value) => (String.ofList name, some (String.ofList value))
    | none => (String.ofList text, none)
  match specs.find? (·.long == name) with
  | none => .error .misuse
  | some spec =>
    if spec.hasValue then
      match value, next with
      | some value, _ => return (← handler.option name value state, false)
      | none, some value => return (← handler.option name value state, true)
      | none, none => .error .misuse
    else if value.isSome then .error .misuse
    else return (← handler.option name "" state, false)

/-- Reads options written as letters, without the dash. -/
def readShort {α : Type} (specs : List OptionSpec) (handler : Handler α) (next : Option String) :
    List Char → α → Except Stop (α × Bool)
  | [], state => .ok (state, false)
  | letter :: rest, state =>
    match specs.find? (·.short == some letter) with
    | none => .error .misuse
    | some spec =>
      if spec.hasValue then
        match rest, next with
        | '=' :: value, _ => do
          return (← handler.option spec.long (String.ofList value) state, false)
        | c :: cs, _ => do
          return (← handler.option spec.long (String.ofList (c :: cs)) state, false)
        | [], some value => do return (← handler.option spec.long value state, true)
        | [], none => .error .misuse
      else do readShort specs handler next rest (← handler.option spec.long "" state)

/-- Reads an argument that is made up of options. -/
def readOptions {α : Type} (specs : List OptionSpec) (handler : Handler α) (arg : String)
    (state : α) (next : Option String) : Except Stop (α × Bool) :=
  match arg.toList with
  | '-' :: '-' :: text => readLong specs handler text state next
  | '-' :: letters => readShort specs handler next letters state
  | _ => .error .misuse

/-- Reads arguments. -/
def readArguments {α : Type} (specs : List OptionSpec) (handler : Handler α) :
    List String → α → Except Stop α
  | [], state => .ok state
  | [arg], state =>
    if arg = "--" then .ok state
    else if isOption arg then (·.1) <$> readOptions specs handler arg state none
    else handler.path arg state
  | arg :: next :: rest, state =>
    if arg = "--" then (next :: rest).foldlM (fun s path => handler.path path s) state
    else if isOption arg then do
      let value := if isOption next then none else some next
      let (state, taken) ← readOptions specs handler arg state value
      if taken then readArguments specs handler rest state
      else readArguments specs handler (next :: rest) state
    else do readArguments specs handler (next :: rest) (← handler.path arg state)
termination_by args => args.length

/-! ## The subcommands -/

/-- Asks for help. -/
def helpOption : OptionSpec := ⟨"help", some 'h', false⟩

/-- The arguments of a check of all descriptions below a directory. -/
structure ValidateOptions where
  root : String
  /-- Whether ranges that end before they start are refused. -/
  strict : Bool
  /-- Whether the segments are listed. -/
  verbose : Bool
deriving DecidableEq, Repr

/-- The arguments of a simulation of one description. -/
structure SimulateOptions where
  file : String
  ticks : Nat
  windows : List Window
  health : Float
  hunger : Int
  /-- Whether a snapshot is put out for each tick. -/
  json : Bool

/-- What is asked for. -/
inductive Request where
  | validate (options : ValidateOptions)
  | simulate (options : SimulateOptions)

/-- Sets what was not set before. -/
def once {α : Type} (before : Option α) (value : Option α) : Except Stop (Option α) :=
  match before, value with
  | none, some value => .ok (some value)
  | _, _ => .error .misuse

/-- Reads a path, which is not empty. -/
def path? (text : String) : Option String := if text.isEmpty then none else some text

/-- The parts of the arguments of a check. -/
structure ValidateParts where
  root : Option String
  strict : Option Unit
  verbose : Option Unit

/-- Reads the arguments of a check. -/
def readValidate (args : List String) : Except Stop ValidateOptions := do
  let specs := [helpOption, ⟨"strict", none, false⟩, ⟨"verbose", some 'v', false⟩]
  let handler : Handler ValidateParts :=
    { option := fun name _ p =>
        match name with
        | "strict" => do return { p with strict := ← once p.strict (some ()) }
        | "verbose" => do return { p with verbose := ← once p.verbose (some ()) }
        | _ => .error .help
      path := fun text p => do return { p with root := ← once p.root (path? text) } }
  let parts ← readArguments specs handler args ⟨none, none, none⟩
  match parts.root with
  | some root => return ⟨root, parts.strict.isSome, parts.verbose.isSome⟩
  | none => .error .misuse

/-- The parts of the arguments of a simulation. -/
structure SimulateParts where
  file : Option String
  ticks : Option Nat
  windows : List Window
  health : Option Float
  hunger : Option Int
  json : Option Unit

/-- Reads the arguments of a simulation. -/
def readSimulate (args : List String) : Except Stop SimulateOptions := do
  let specs := [helpOption, ⟨"ticks", some 't', true⟩, ⟨"event", some 'e', true⟩,
    ⟨"health", none, true⟩, ⟨"hunger", none, true⟩, ⟨"json", none, false⟩]
  let handler : Handler SimulateParts :=
    { option := fun name value p =>
        match name with
        | "ticks" => do
          let ticks := Decimal.natural? Decimal.wordBound value.toList
          return { p with ticks := ← once p.ticks ticks }
        | "event" =>
          match Window.parse? value with
          | some w => return { p with windows := p.windows ++ [w] }
          | none => .error .misuse
        | "health" => do return { p with health := ← once p.health (Decimal.real? value.toList) }
        | "hunger" => do return { p with hunger := ← once p.hunger (Decimal.integer? value.toList) }
        | "json" => do return { p with json := ← once p.json (some ()) }
        | _ => .error .help
      path := fun text p => do return { p with file := ← once p.file (path? text) } }
  let parts ← readArguments specs handler args ⟨none, none, [], none, none, none⟩
  match parts.file with
  | some file => return ⟨file, parts.ticks.getD 40, parts.windows, parts.health.getD 20,
      parts.hunger.getD 20, parts.json.isSome⟩
  | none => .error .misuse

/-- Reads the arguments of the whole command. -/
def Request.parse : List String → Except Stop Request
  | "validate" :: args => .validate <$> readValidate args
  | "simulate" :: args => .simulate <$> readSimulate args
  | ["help"] => .error .help
  | ["help", "validate"] => .error .help
  | ["help", "simulate"] => .error .help
  | ["help", "help"] => .error .help
  | "--help" :: _ => .error .help
  | "--version" :: _ => .error .version
  | arg :: _ =>
    match arg.toList with
    | '-' :: 'h' :: _ => .error .help
    | '-' :: 'V' :: _ => .error .version
    | _ => .error .misuse
  | [] => .error .misuse

end Flipbook.Command
