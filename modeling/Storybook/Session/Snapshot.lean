/-
# `Storybook.Session.Snapshot` — the state of a session as a document
-/
import Storybook.Json.Layout
import Storybook.Json.Record
import Storybook.Session.Basic

namespace Storybook

open Json (slots? required optional)

/-- What a host needs to know of the state of a session. -/
structure Snapshot where
  current : Option Int64
  bindings : Variables
  history : List Int64
deriving Repr, Inhabited

namespace Snapshot

def toJson (s : Snapshot) : Json :=
  .obj [("currentPageId", .orNull (s.current.map Json.ofInt64)),
    ("variables", .obj (s.bindings.mapValues fun _ value => value.toJson).entries),
    ("history", .arr (s.history.map Json.ofInt64))]

def fieldNames : List String := ["currentPageId", "variables", "history"]

def ofJson? (j : Json) : Option Snapshot := do
  match ← slots? fieldNames j with
  | [current, bindings, history] =>
    pure ⟨← optional Json.int64? current, ← required (Json.table? Value.ofJson?) bindings,
      ← required (Json.list? Json.int64?) history⟩
  | _ => none

def read (text : String) : Option Snapshot :=
  (Json.readAs (.flat fieldNames) text).bind ofJson?

end Snapshot

def Session.snapshot (s : Session σ ν) : Snapshot :=
  ⟨s.navigation.current, s.bindings, s.navigation.history⟩

end Storybook
