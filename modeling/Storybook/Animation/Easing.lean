/-
# `Storybook.Animation.Easing` — how a movement gains and loses speed

An easing maps the progress of a movement, from zero to one, to the part of the way that has
been gone.  Progress outside these limits is brought back to them.
-/

namespace Storybook

inductive Easing where
  | linear
  | easeIn | easeOut | easeInOut
  | easeInCubic | easeOutCubic | easeInOutCubic
deriving DecidableEq, Repr

namespace Easing

instance : Inhabited Easing := ⟨easeOut⟩

def all : List Easing :=
  [linear, easeIn, easeOut, easeInOut, easeInCubic, easeOutCubic, easeInOutCubic]

def name : Easing → String
  | linear => "linear"
  | easeIn => "ease_in"
  | easeOut => "ease_out"
  | easeInOut => "ease_in_out"
  | easeInCubic => "ease_in_cubic"
  | easeOutCubic => "ease_out_cubic"
  | easeInOutCubic => "ease_in_out_cubic"

/-- The name of an easing without underscores: the second spelling that scripts may use. -/
def camelName : Easing → String
  | linear => "linear"
  | easeIn => "easeIn"
  | easeOut => "easeOut"
  | easeInOut => "easeInOut"
  | easeInCubic => "easeInCubic"
  | easeOutCubic => "easeOutCubic"
  | easeInOutCubic => "easeInOutCubic"

def ofName? (name : String) : Option Easing := all.find? (·.name == name)

/-- The easing that a script calls so, by either name. -/
def parse? (text : String) : Option Easing :=
  all.find? fun easing => easing.name == text || easing.camelName == text

/-- The easing that is asked for; another one where the name is missing or not known. -/
def resolve (name : Option String) (standard : Easing) : Easing :=
  (name.bind parse?).getD standard

/-- Progress between zero and one. -/
def clamp (t : Float) : Float := if t < 0.0 then 0.0 else if 1.0 < t then 1.0 else t

/-- The part of the way that has been gone. -/
def apply (easing : Easing) (progress : Float) : Float :=
  let t := clamp progress
  let square (x : Float) : Float := x * x
  let cube (x : Float) : Float := x * x * x
  match easing with
  | linear => t
  | easeIn => t * t
  | easeOut => 1.0 - (1.0 - t) * (1.0 - t)
  | easeInOut => if t < 0.5 then 2.0 * t * t else 1.0 - square (-2.0 * t + 2.0) / 2.0
  | easeInCubic => cube t
  | easeOutCubic => 1.0 - cube (1.0 - t)
  | easeInOutCubic =>
    if t < 0.5 then 4.0 * t * t * t else 1.0 - cube (-2.0 * t + 2.0) / 2.0

end Easing

end Storybook
