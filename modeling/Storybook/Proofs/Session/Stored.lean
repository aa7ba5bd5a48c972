/-
# `Storybook.Proofs.Session.Stored` — what a stored session gives back

A host stores the snapshot of a session as JSON and reads it again.  JSON has no form for the
infinities and for NaN: they are written as null, and a null is read as the value that is nothing.

| part of the snapshot | read back |
| :-- | :-- |
| current page, history | as they were |
| text, truth value, nothing | as it was |
| finite number | as it was |
| any other number | nothing |
| list | item by item |

So a snapshot is read back as it was exactly if all numbers of its variables are finite, those in
lists included.  A story can make others: it may divide by zero.
-/
import Storybook.Proofs.Json.Record
import Storybook.Proofs.Session.Request
import Storybook.Session.Snapshot

namespace Storybook

open Json (slots? required optional fieldsOf slots?_fieldsOf table?_of_read list?_map
  restores_int64)

/-! ## Values -/

namespace Value

mutual

/-- Whether all numbers of a value are finite. -/
def isFinite : Value → Bool
  | number value => value.isFinite
  | list items => areFinite items
  | string _ | bool _ | null => true

def areFinite : List Value → Bool
  | [] => true
  | item :: rest => isFinite item && areFinite rest

end

mutual

/-- What is read back of a value. -/
def stored : Value → Value
  | number value => if value.isFinite then number value else null
  | list items => list (storedAll items)
  | other => other

def storedAll : List Value → List Value
  | [] => []
  | item :: rest => stored item :: storedAll rest

end

mutual

/-- The induction is on the value and on the items of lists. -/
theorem ofJson?_toJson_eq_stored : (v : Value) → ofJson? v.toJson = some v.stored
  | number x => by
    rw [toJson, stored, Json.ofFloat]
    cases x.isFinite <;> rfl
  | list items => by
    rw [toJson, ofJson?, ofJsons?_toJsons items, stored]
    rfl
  | string _ | bool _ | null => rfl

theorem ofJsons?_toJsons : (l : List Value) → ofJsons? (toJsons l) = some (storedAll l)
  | [] => rfl
  | item :: rest => by
    rw [toJsons, ofJsons?, ofJson?_toJson_eq_stored item, ofJsons?_toJsons rest, storedAll]
    rfl

end

mutual

/-- A value is read back as it was exactly if its numbers are finite. -/
theorem stored_eq_iff : (v : Value) → (v.stored = v ↔ v.isFinite = true)
  | number x => by
    rw [stored, isFinite]
    cases x.isFinite <;> simp
  | list items => by
    rw [stored, isFinite, list.injEq]
    exact storedAll_eq_iff items
  | string _ | bool _ | null => by simp [stored, isFinite]

theorem storedAll_eq_iff : (l : List Value) → (storedAll l = l ↔ areFinite l = true)
  | [] => by simp [storedAll, areFinite]
  | item :: rest => by
    rw [storedAll, areFinite, List.cons.injEq, Bool.and_eq_true, stored_eq_iff item,
      storedAll_eq_iff rest]

end

end Value

/-! ## Snapshots -/

def Variables.stored (bindings : Variables) : Variables :=
  bindings.mapValues fun _ value => value.stored

theorem Variables.stored_eq_iff (bindings : Variables) :
    bindings.stored = bindings ↔ ∀ e ∈ bindings.entries, e.2.isFinite = true := by
  have hentries : bindings.stored = bindings ↔
      bindings.entries.map (fun e => (e.1, e.2.stored)) = bindings.entries :=
    ⟨congrArg Table.entries, fun h => Table.ext h⟩
  rw [hentries]
  generalize bindings.entries = entries
  induction entries with
  | nil => simp
  | cons e rest ih =>
    rw [List.map_cons, List.cons.injEq, List.forall_mem_cons]
    refine and_congr ?_ ih
    rw [← Value.stored_eq_iff]
    exact ⟨congrArg Prod.snd, fun h => Prod.ext rfl h⟩

namespace Snapshot

theorem ofJson?_toJson_stored (s : Snapshot) :
    ofJson? s.toJson = some { s with bindings := s.bindings.stored } := by
  let slots : List (Option Json) := [some (.orNull (s.current.map Json.ofInt64)),
    some (.obj (s.bindings.mapValues fun _ value => value.toJson).entries),
    some (.arr (s.history.map Json.ofInt64))]
  have hslots : slots? fieldNames (.obj (fieldsOf fieldNames slots)) = some slots :=
    slots?_fieldsOf (by decide) rfl
  have hcurrent : optional Json.int64? (some (.orNull (s.current.map Json.ofInt64))) =
      some s.current := by
    cases s.current with
    | none => rfl
    | some page => exact congrArg (Option.map some) (restores_int64 page).read_write
  have hbindings : required (Json.table? Value.ofJson?)
      (some (.obj (s.bindings.mapValues fun _ value => value.toJson).entries)) =
        some s.bindings.stored :=
    table?_of_read fun e _ => e.2.ofJson?_toJson_eq_stored
  have hhistory : required (Json.list? Json.int64?) (some (.arr (s.history.map Json.ofInt64))) =
      some s.history :=
    (list?_map fun page _ => restores_int64 page).read_write
  have hjson : s.toJson = .obj (fieldsOf fieldNames slots) := rfl
  rw [ofJson?, hjson, hslots]
  simp only [slots, Option.bind_eq_bind, Option.bind_some, hcurrent, hbindings, hhistory]
  rfl

end Snapshot

/-! ## Sessions -/

namespace Session

variable {σ ν : Type}

/-- The snapshot of a session is read back from its JSON with the same page, the same history and
the stored variables; and it is read back as it was exactly if all numbers of the variables are
finite. -/
theorem ofJson?_snapshot (s : Session σ ν) :
    Snapshot.ofJson? s.snapshot.toJson =
        some ⟨s.navigation.current, s.bindings.stored, s.navigation.history⟩ ∧
      (Snapshot.ofJson? s.snapshot.toJson = some s.snapshot ↔
        ∀ e ∈ s.bindings.entries, e.2.isFinite = true) := by
  have hread : Snapshot.ofJson? s.snapshot.toJson =
      some ⟨s.navigation.current, s.bindings.stored, s.navigation.history⟩ :=
    s.snapshot.ofJson?_toJson_stored
  refine ⟨hread, ?_⟩
  rw [hread, ← Variables.stored_eq_iff]
  constructor
  · intro h
    exact congrArg Snapshot.bindings (Option.some.inj h)
  · intro h
    rw [h]
    rfl

/-- A story that shares a cake among its guests, who do not come. -/
def cakeStory : Story where
  title := "Cake"
  pages := [⟨1, [], [], none⟩]
  statements := [.init "share" (.binary .divide (.number 1) (.var "guests"))]

/-- The share is an infinite number in the session, and nothing in the one that is read back. -/
theorem ofJson?_snapshot_cake :
    let s := (new {} ∅ (⟨[]⟩ : WordScript) : Session WordScript SceneNode).run
      [.load cakeStory false]
    ∃ share restored, s.bindings.find? "share" = some (.number share) ∧
      Number.display share = "Infinity" ∧ Snapshot.ofJson? s.snapshot.toJson = some restored ∧
        restored.bindings.find? "share" = some .null := by
  intro s
  have hshare : (s.bindings.find? "share").map (fun v => (v.isNumber, v.isFinite, v.display)) =
      some (true, false, "Infinity") := by decide +kernel
  cases hfind : s.bindings.find? "share" with
  | none =>
    rw [hfind] at hshare
    cases hshare
  | some value =>
    rw [hfind] at hshare
    obtain ⟨hnumber, hfinite, hdisplay⟩ : value.isNumber = true ∧ value.isFinite = false ∧
        value.display = "Infinity" := by simpa using hshare
    cases value with
    | number share =>
      refine ⟨share, _, rfl, hdisplay, s.snapshot.ofJson?_toJson_stored, ?_⟩
      show (s.bindings.mapValues fun _ value => value.stored).find? "share" = some .null
      rw [Table.find?_mapValues, hfind, Option.map_some, Value.stored]
      exact congrArg some (if_neg (Bool.eq_false_iff.mp hfinite))
    | _ => cases hnumber

end Session

end Storybook
