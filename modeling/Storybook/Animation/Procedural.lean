/-
# `Storybook.Animation.Procedural` — animations that follow a formula

A procedural animation drives one property of a node, from the transform that the node had
when the animation began:

| kind | drives | over a cycle |
| :-- | :-- | :-- |
| bounce | `y` | up and down once |
| pulse | `scale` | larger and smaller once |
| spin | `rotation` | once around |
| shake | `x` | to and fro, less and less |
| fade in, fade out | `opacity` | to one, or to zero |

A fade runs once and leaves the opacity that it reached.  The others run for a number of
cycles, or for ever if that number is negative, and the node then gets its first transform
back.
-/
import Storybook.Animation.Node
import Storybook.Settings

namespace Storybook

inductive AnimationKind where
  | bounce | pulse | fadeIn | fadeOut | spin | shake
deriving DecidableEq, Repr, Inhabited

namespace AnimationKind

def all : List AnimationKind := [bounce, pulse, fadeIn, fadeOut, spin, shake]

def name : AnimationKind → String
  | bounce => "bounce"
  | pulse => "pulse"
  | fadeIn => "fade_in"
  | fadeOut => "fade_out"
  | spin => "spin"
  | shake => "shake"

def ofName? (name : String) : Option AnimationKind := all.find? (·.name == name)

/-- Whether a kind repeats; fades do not. -/
def isCyclic : AnimationKind → Bool
  | fadeIn | fadeOut => false
  | _ => true

/-- How many cycles a kind runs for when nothing is said. -/
def standardCycles : AnimationKind → Int64
  | shake => 1
  | _ => -1

/-- The property that a kind drives. -/
def driven : AnimationKind → String
  | bounce => "y"
  | pulse => "scale"
  | fadeIn | fadeOut => "opacity"
  | spin => "rotation"
  | shake => "x"

end AnimationKind

/-- What a step of a procedural animation comes to. -/
inductive RunStep where
  | running
  | finished (restore : Bool)
deriving DecidableEq, Repr, Inhabited

structure ProceduralRun where
  kind : AnimationKind
  duration : Float
  cycles : Int64
  elapsed : Float
  /-- The transform of the node when the animation began. -/
  snapshot : Transform
deriving DecidableEq, Repr, Inhabited

/-- The time that has passed, at least none. -/
def forward (elapsed : Float) : Float := if 0.0 < elapsed then elapsed else 0.0

/-- The part of a duration that has passed, at most one; all of it where there is none. -/
def progress (elapsed duration : Float) : Float :=
  if duration ≤ 0.0 then 1.0
  else
    let t := elapsed / duration
    if t < 1.0 then t else 1.0

namespace ProceduralRun

/-- The animation of a kind on a node with a transform; a cycle takes one millisecond at
least. -/
def start (kind : AnimationKind) (duration : UInt64) (cycles : Int64) (snapshot : Transform) :
    ProceduralRun :=
  let duration := if kind.isCyclic then max duration 1 else duration
  ⟨kind, duration.toFloat, cycles, 0.0, snapshot⟩

/-- The animation a while later. -/
def later (elapsed : Float) (run : ProceduralRun) : ProceduralRun :=
  { run with elapsed := run.elapsed + forward elapsed }

def completed (run : ProceduralRun) : Int64 := Number.floorToInt64 (run.elapsed / run.duration)

/-- Whether all cycles are complete, where there are cycles. -/
def isOver (run : ProceduralRun) : Bool :=
  run.kind.isCyclic && decide (0 ≤ run.cycles ∧ run.cycles ≤ run.completed)

def pi : Float := 3.141592653589793

/-- The value that a cyclic animation gives its property at a phase of the cycle. -/
def valueAt (settings : AnimationSettings) (run : ProceduralRun) (phase : Float) : Float :=
  let base := run.snapshot
  match run.kind with
  | .bounce => base.y - settings.bounceHeight * Float.sin (pi * phase)
  | .pulse => base.scale * (1.0 + settings.pulseAmount * Float.sin (2.0 * pi * phase))
  | .spin => base.rotation + 360.0 * phase
  | .shake =>
    base.x + settings.shakeAmplitude * (1.0 - phase) *
      Float.sin (2.0 * pi * settings.shakeOscillations * phase)
  | .fadeIn | .fadeOut => base.opacity

/-- The opacity of a fade after a part of its way. -/
def opacityAt (run : ProceduralRun) (t : Float) : Float :=
  match run.kind with
  | .fadeIn => 0.0 + (1.0 - 0.0) * t
  | _ => run.snapshot.opacity + (0.0 - run.snapshot.opacity) * t

/-- The value that an animation gives its property now. -/
def value (settings : AnimationSettings) (run : ProceduralRun) : Float :=
  if run.kind.isCyclic then
    run.valueAt settings (Number.remainder run.elapsed run.duration / run.duration)
  else run.opacityAt (progress run.elapsed run.duration)

/-- Whether a fade is at its end. -/
def hasFaded (run : ProceduralRun) : Bool :=
  !run.kind.isCyclic && decide (1.0 ≤ progress run.elapsed run.duration)

/-- Lets time pass and moves the node. -/
def advance [RenderNode ν] (settings : AnimationSettings) (elapsed : Float) (run : ProceduralRun)
    (node : ν) : ProceduralRun × ν × RunStep :=
  let run := run.later elapsed
  if run.isOver then (run, node, .finished true)
  else
    (run, RenderNode.write run.kind.driven (run.value settings) node,
      if run.hasFaded then .finished false else .running)

end ProceduralRun

end Storybook
