/-
# `Storybook.Settings` — the settings of a session

Settings come from a JSON document in which every field may be left out.
-/
import Storybook.Json.Layout
import Storybook.Json.Record

namespace Storybook

open Json (slots? optional defaulted)

/-- How sessions run. -/
structure RuntimeSettings where
  /-- Keep the variables that a story does not declare when it is loaded. -/
  preserveExternal : Bool := true
  /-- Turn only to pages of the story. -/
  strictNavigation : Bool := false
  /-- What determines the random words of a session. -/
  randomSeed : Option UInt64 := none
deriving DecidableEq, Repr, Inhabited

/-- How animations run. -/
structure AnimationSettings where
  defaultEasing : String := "ease_out"
  defaultMoveDuration : UInt64 := 500
  defaultTweenDuration : UInt64 := 500
  defaultAnimationDuration : UInt64 := 1000
  /-- How high a bounce goes. -/
  bounceHeight : Float := 20.0
  /-- By which part of itself a scale swings in a pulse. -/
  pulseAmount : Float := 0.1
  /-- How far a shake goes. -/
  shakeAmplitude : Float := 10.0
  /-- How often a shake goes to and fro in a cycle. -/
  shakeOscillations : Float := 4.0
deriving DecidableEq, Repr, Inhabited

/-- The settings of a session. -/
structure Settings where
  runtime : RuntimeSettings := {}
  animation : AnimationSettings := {}
deriving DecidableEq, Repr, Inhabited

namespace RuntimeSettings

def toJson (s : RuntimeSettings) : Json :=
  .obj [("preserve_external_vars", .bool s.preserveExternal),
    ("strict_navigation", .bool s.strictNavigation),
    ("random_seed", match s.randomSeed with
      | some seed => .int seed.toNat
      | none => .null)]

def fieldNames : List String := ["preserve_external_vars", "strict_navigation", "random_seed"]

def ofJson? (j : Json) : Option RuntimeSettings := do
  match ← slots? fieldNames j with
  | [preserve, strict, seed] =>
    pure ⟨← defaulted Json.bool? true preserve, ← defaulted Json.bool? false strict,
      ← optional Json.uint64? seed⟩
  | _ => none

end RuntimeSettings

namespace AnimationSettings

def toJson (s : AnimationSettings) : Json :=
  .obj [("default_easing", .str s.defaultEasing),
    ("default_move_duration_ms", .int s.defaultMoveDuration.toNat),
    ("default_tween_duration_ms", .int s.defaultTweenDuration.toNat),
    ("default_animation_duration_ms", .int s.defaultAnimationDuration.toNat),
    ("bounce_height", .ofFloat s.bounceHeight), ("pulse_amount", .ofFloat s.pulseAmount),
    ("shake_amplitude", .ofFloat s.shakeAmplitude),
    ("shake_oscillations", .ofFloat s.shakeOscillations)]

def fieldNames : List String :=
  ["default_easing", "default_move_duration_ms", "default_tween_duration_ms",
    "default_animation_duration_ms", "bounce_height", "pulse_amount", "shake_amplitude",
    "shake_oscillations"]

def ofJson? (j : Json) : Option AnimationSettings := do
  let standard : AnimationSettings := {}
  match ← slots? fieldNames j with
  | [easing, move, tween, animation, bounce, pulse, amplitude, oscillations] =>
    pure
      { defaultEasing := ← defaulted Json.str? standard.defaultEasing easing
        defaultMoveDuration := ← defaulted Json.uint64? standard.defaultMoveDuration move
        defaultTweenDuration := ← defaulted Json.uint64? standard.defaultTweenDuration tween
        defaultAnimationDuration :=
          ← defaulted Json.uint64? standard.defaultAnimationDuration animation
        bounceHeight := ← defaulted Json.float? standard.bounceHeight bounce
        pulseAmount := ← defaulted Json.float? standard.pulseAmount pulse
        shakeAmplitude := ← defaulted Json.float? standard.shakeAmplitude amplitude
        shakeOscillations := ← defaulted Json.float? standard.shakeOscillations oscillations }
  | _ => none

end AnimationSettings

namespace Settings

def toJson (s : Settings) : Json :=
  .obj [("runtime", s.runtime.toJson), ("animation", s.animation.toJson)]

def ofJson? (j : Json) : Option Settings := do
  match ← slots? ["runtime", "animation"] j with
  | [runtime, animation] =>
    pure ⟨← defaulted RuntimeSettings.ofJson? {} runtime,
      ← defaulted AnimationSettings.ofJson? {} animation⟩
  | _ => none

def layout : Json.Layout :=
  .record [("runtime", .flat RuntimeSettings.fieldNames),
    ("animation", .flat AnimationSettings.fieldNames)]

def read (text : String) : Option Settings := (Json.readAs layout text).bind ofJson?

end Settings

end Storybook
