/-
# `Storybook.CommandLine.Execute` — what commands print

| command | prints |
| :-- | :-- |
| `parse FILE` | the story of a script as JSON |
| `validate FILE` | whether a script has a story |
| `run FILE` | the events of a session, and the state it ends in |

A run is a function of the arguments, of the files, and of the random words; reading files and
printing are left to `Storybook.Main`.
-/
import Storybook.CommandLine.Arguments
import Storybook.Json.Sorted
import Storybook.Json.Writer
import Storybook.Random.Cipher
import Storybook.Script.Compile
import Storybook.Session.Snapshot

namespace Storybook.CommandLine

/-- Why a command fails. -/
inductive Failure where
  | parse (problem : Script.Diagnostic)
  | settings (reason : String)
  | unreadable (file reason : String)
  | usage
deriving DecidableEq, Repr, Inhabited

def Failure.message : Failure → String
  | parse problem => "Parse error: " ++ problem.display
  | settings reason => "Config error: Failed to parse config file: " ++ reason
  | unreadable file reason => "Internal error: Failed to read " ++ file ++ ": " ++ reason
  | usage => "Usage: fable <parse|validate|run> <FILE> [OPTIONS]"

/-- What a command comes to: the lines for the two streams, and the exit status. -/
structure Report where
  status : UInt32
  output : List String
  errors : List String
deriving DecidableEq, Repr, Inhabited

/-- Everything a command finds outside of its arguments. -/
structure World (σ : Type) where
  /-- The text of a file, or why it cannot be read. -/
  read : String → Except String String
  source : σ

variable {σ : Type} [WordSource σ]

def readScript (world : World σ) (file : String) : Except Failure String :=
  (world.read file).mapError (.unreadable file)

/-- The settings of a file; the standard ones where the file cannot be read. -/
def readSettings (world : World σ) (file : String) : Except Failure Settings :=
  match world.read file with
  | .error _ => .ok {}
  | .ok text =>
    match Settings.read text with
    | some settings => .ok settings
    | none => .error (.settings "the settings do not have the expected form")

/-- Prints the story of a script. -/
def parse (world : World σ) (file : String) (pretty numbered : Bool) : Except Failure Report := do
  let text ← readScript world file
  let story ←
    if numbered then (Script.compileNumbered text).mapError .parse
    else ((Script.compile (⟨world.source⟩ : Script.RandomIds σ) text).map (·.1)).mapError .parse
  let json := story.toJson
  pure ⟨0, [if pretty then json.pretty else json.compact], []⟩

/-- Prints whether a script has a story. -/
def validate (world : World σ) (file : String) : Except Failure Report := do
  let text ← readScript world file
  let validation := Script.validate text
  pure ⟨if validation.isValid then 0 else 2, [validation.toJson.compact], []⟩

/-- Lets time pass, and again after each click. -/
def replay (s : Session τ SceneNode) [WordSource τ] (clicks : List String) (elapsed : Float) :
    Session τ SceneNode :=
  clicks.foldl (fun s id => (s.dispatchById .click id).1.tick elapsed) (s.tick elapsed)

/-- The state in which a session ends. -/
def finalState (s : Session τ SceneNode) : Json :=
  (Json.obj [("state", s.snapshot.toJson), ("nodes", Scene.toJson s.nodes)]).sorted

def play [WordSource τ] (settings : Settings) (story : Story) (source : τ) (clicks : List String)
    (elapsed : Float) (enter : Bool) : Report :=
  let s := (Session.new settings (Scene.ofStory story) source).openStory story
  let s := if enter then s.enterPage else s
  let s := replay s clicks elapsed
  ⟨0, [(finalState s).pretty], s.published.map (·.toJson.compact)⟩

/-- Plays the story of a script. -/
def run (world : World σ) (settingsFile file : String) (clicks : List String) (elapsed : Float)
    (enter : Bool) : Except Failure Report := do
  let settings ← readSettings world settingsFile
  let text ← readScript world file
  let story ← (Script.compileNumbered text).mapError .parse
  pure <| match settings.runtime.randomSeed with
    | some seed => play settings story (SeededSource.ofSeed seed) clicks elapsed enter
    | none => play settings story world.source clicks elapsed enter

def Failure.report (failure : Failure) : Report :=
  match failure with
  | .usage => ⟨2, [], [failure.message]⟩
  | _ => ⟨1, [], ["Error: " ++ failure.message]⟩

/-- Runs the command that arguments give. -/
def execute (world : World σ) (arguments : List String) : Report :=
  let result : Except Failure Report :=
    match Arguments.ofList? arguments with
    | none => .error .usage
    | some arguments =>
      match arguments.command with
      | .parse file pretty numbered => parse world file pretty numbered
      | .validate file => validate world file
      | .run file clicks elapsed enter =>
        run world arguments.settingsFile file clicks elapsed enter
  match result with
  | .ok report => report
  | .error failure => failure.report

end Storybook.CommandLine
