/-
# `Storybook.CommandLine.Arguments` — the commands that arguments give

Arguments are words and options in any order; what follows a lone `--` is a word whatever it
looks like.  The first word names the command and the second one the script.

| option | belongs to |
| :-- | :-- |
| `-c FILE`, `--config FILE` | every command |
| `-v`, `--verbose` | every command |
| `-p`, `--pretty`, `--sequential-ids` | `parse` |
| `--click ID`, `--tick-ms NUMBER`, `--enter` | `run` |

An option with a value has it in the next argument, if that is no option, or in its own after
an equals sign.  Clicks may be repeated; of every other option there is at most one.
-/
import Storybook.Number.Reading

namespace Storybook.CommandLine

/-- The name of a command. -/
inductive Verb where
  | parse | validate | run
deriving DecidableEq, Repr, Inhabited

def Verb.ofName? : String → Option Verb
  | "parse" => some parse
  | "validate" => some validate
  | "run" => some run
  | _ => none

/-- An option of the command line. -/
inductive Flag where
  | settings (file : String)
  | verbose
  | pretty
  | numbered
  | click (id : String)
  | elapsed (time : Float)
  | enter
deriving DecidableEq, Repr, Inhabited

namespace Flag

/-- The option of a name, if it has no value. -/
def ofName? : String → Option Flag
  | "--verbose" | "-v" => some verbose
  | "--pretty" | "-p" => some pretty
  | "--sequential-ids" => some numbered
  | "--enter" => some enter
  | _ => none

/-- The option of a name and a value. -/
def ofValue? (name value : String) : Option Flag :=
  match name with
  | "--config" | "-c" => some (settings value)
  | "--click" => some (click value)
  | "--tick-ms" => (Number.read value.toList).map elapsed
  | _ => none

/-- Whether an option belongs to a command. -/
def belongsTo (verb : Verb) : Flag → Bool
  | settings _ | verbose => true
  | pretty | numbered => verb == .parse
  | click _ | elapsed _ | enter => verb == .run

/-- Whether two options exclude each other, being the same one. -/
def clashes : Flag → Flag → Bool
  | settings _, settings _ | verbose, verbose | pretty, pretty | numbered, numbered => true
  | elapsed _, elapsed _ | enter, enter => true
  | _, _ => false

/-- The file of an option for settings. -/
def settings? : Flag → Option String
  | settings file => some file
  | _ => none

/-- The agent of an option for a click. -/
def click? : Flag → Option String
  | click id => some id
  | _ => none

/-- The time of an option for the time that passes. -/
def elapsed? : Flag → Option Float
  | elapsed time => some time
  | _ => none

end Flag

/-- Whether a list of options repeats one that may not be repeated. -/
def hasClash : List Flag → Bool
  | [] => false
  | flag :: rest => rest.any flag.clashes || hasClash rest

/-- The name and the value of an option that has both in one argument: a long one with an
equals sign, or a letter with its value, an equals sign between them or not. -/
def splitOption : List Char → Option (String × String)
  | '-' :: '-' :: cs =>
    match cs.dropWhile (· != '=') with
    | [] => none
    | _ :: value =>
      some (String.ofList ('-' :: '-' :: cs.takeWhile (· != '=')), String.ofList value)
  | '-' :: letter :: '=' :: value => some (String.ofList ['-', letter], String.ofList value)
  | '-' :: letter :: c :: value => some (String.ofList ['-', letter], String.ofList (c :: value))
  | _ => none

def isOption (argument : String) : Bool :=
  match argument.toList with
  | '-' :: _ :: _ => true
  | _ => false

/-- The option that an argument gives by itself. -/
def Flag.ofArgument? (argument : String) : Option Flag :=
  (ofName? argument).or
    ((splitOption argument.toList).bind fun (name, value) => ofValue? name value)

/-- What has been found among arguments: words, and options. -/
structure Found where
  words : List String
  flags : List Flag
deriving Repr, Inhabited

/-- The words and the options among arguments. -/
def collect : List String → Option Found
  | [] => some ⟨[], []⟩
  | "--" :: rest => some ⟨rest, []⟩
  | argument :: rest =>
    if isOption argument then
      match Flag.ofArgument? argument with
      | some flag => (collect rest).map fun found => { found with flags := flag :: found.flags }
      | none =>
        match rest with
        | [] => none
        | value :: rest => do
          guard !isOption value
          let flag ← Flag.ofValue? argument value
          let found ← collect rest
          pure { found with flags := flag :: found.flags }
    else (collect rest).map fun found => { found with words := argument :: found.words }

/-- What a command works on. -/
inductive Command where
  | parse (file : String) (pretty numbered : Bool)
  | validate (file : String)
  | run (file : String) (clicks : List String) (elapsed : Float) (enter : Bool)
deriving Repr, Inhabited

/-- A command, and the file with its settings. -/
structure Arguments where
  command : Command
  settingsFile : String
deriving Repr, Inhabited

/-- The command on a file with options. -/
def Command.ofFlags (verb : Verb) (file : String) (flags : List Flag) : Command :=
  match verb with
  | .parse => .parse file (flags.contains .pretty) (flags.contains .numbered)
  | .validate => .validate file
  | .run =>
    .run file (flags.filterMap Flag.click?) ((flags.findSome? Flag.elapsed?).getD 0.0)
      (flags.contains .enter)

namespace Arguments

/-- The command that arguments give, if they have the form of one. -/
def ofList? (arguments : List String) : Option Arguments := do
  match ← collect arguments with
  | ⟨[verb, file], flags⟩ =>
    let verb ← Verb.ofName? verb
    guard (flags.all (·.belongsTo verb) && !hasClash flags)
    pure ⟨.ofFlags verb file flags, (flags.findSome? Flag.settings?).getD "fable.json"⟩
  | _ => none

def files (arguments : Arguments) : List String :=
  match arguments.command with
  | .parse file _ _ => [file]
  | .validate file => [file]
  | .run file _ _ _ => [arguments.settingsFile, file]

end Arguments

end Storybook.CommandLine
