/-
# `Storybook.Proofs.Json.Record` — records that read back

A record is written as the fields that are there, in the order of their names, and read as one
slot for each name.  `fieldsOf` is the written side of any record, and the laws here say that its
slots are the values that were written.

| written | read | law |
| :-- | :-- | :-- |
| the fields of a record | its slots | `slots?_fieldsOf` |
| a variant with its kind | the fields, by the reader of the kind | `variantWithin?_variant` |
| a value that is there | a required or a defaulted slot | `required_some`, `defaulted_some` |
| a value that may be missing | an optional slot | `optional_map` |
| a list of values | a list | `list?_map` |
| a table of values | a table | `table?_mapValues`, `table?_of_read` |

`Restores` is what they ask of the values: the reader gives the value again, and the value is
not written as null, which would stand for none.
-/
import Storybook.Json.Record
import Storybook.Story.Encoding

namespace Storybook.Json

variable {α : Type}

/-! ## Fields and slots -/

/-- The fields of a record: those names that have a value. -/
def fieldsOf : List String → List (Option Json) → List (String × Json)
  | name :: names, value :: values => field? name value ++ fieldsOf names values
  | _, _ => []

theorem field?_some (name : String) (value : Json) : field? name (some value) = [(name, value)] :=
  rfl

theorem mem_field? {name : String} {value : Option Json} {f : String × Json}
    (h : f ∈ field? name value) : f.1 = name := by
  cases value with
  | none => cases h
  | some value => rw [List.mem_singleton.mp h]

theorem mem_fieldsOf : ∀ {names : List String} {values : List (Option Json)} {f : String × Json},
    f ∈ fieldsOf names values → f.1 ∈ names
  | [], _, _, h => by cases h
  | _ :: _, [], _, h => by cases h
  | name :: names, value :: values, f, h => by
      rcases List.mem_append.mp h with h | h
      · exact List.mem_cons.mpr (.inl (mem_field? h))
      · exact List.mem_cons_of_mem _ (mem_fieldsOf h)

theorem filter_eq_nil {l : List (String × Json)} {name : String} (h : ∀ f ∈ l, f.1 ≠ name) :
    l.filter (·.1 == name) = [] :=
  List.filter_eq_nil_iff.mpr fun f hf => by simpa using h f hf

theorem filter_field? (name : String) (value : Option Json) :
    (field? name value).filter (·.1 == name) = field? name value :=
  List.filter_eq_self.mpr fun f hf => by simpa using mem_field? hf

/-- The slot of a name among some fields. -/
def slot? (l : List (String × Json)) (name : String) : Option (Option Json) :=
  match l.filter (·.1 == name) with
  | [] => some none
  | [field] => some (some field.2)
  | _ => none

theorem slot?_of_filter {l : List (String × Json)} {name : String} {value : Option Json}
    (h : l.filter (·.1 == name) = field? name value) : slot? l name = some value := by
  rw [slot?, h]
  cases value <;> rfl

theorem mapM_slot? : ∀ (names : List String) (values : List (Option Json))
    (before : List (String × Json)), names.Nodup → values.length = names.length →
    (∀ f ∈ before, f.1 ∉ names) →
      names.mapM (slot? (before ++ fieldsOf names values)) = some values
  | [], [], _, _, _, _ => rfl
  | name :: names, value :: values, before, hnodup, hlength, hbefore => by
      obtain ⟨hname, hnames⟩ := List.nodup_cons.mp hnodup
      have hfirst : slot? (before ++ fieldsOf (name :: names) (value :: values)) name =
          some value := by
        apply slot?_of_filter
        have hnone : before.filter (·.1 == name) = [] :=
          filter_eq_nil fun f hf heq => hbefore f hf (heq ▸ List.mem_cons_self)
        have hrest : (fieldsOf names values).filter (·.1 == name) = [] :=
          filter_eq_nil fun f hf heq => hname (heq ▸ mem_fieldsOf hf)
        simp [fieldsOf, hnone, hrest, filter_field?]
      have hothers : names.mapM (slot? (before ++ fieldsOf (name :: names) (value :: values))) =
          some values := by
        have hpassed : ∀ f ∈ before ++ field? name value, f.1 ∉ names := by
          intro f hf
          rcases List.mem_append.mp hf with hf | hf
          · exact fun hmem => hbefore f hf (List.mem_cons_of_mem _ hmem)
          · exact mem_field? hf ▸ hname
        have hnext := mapM_slot? names values (before ++ field? name value) hnames
          (Nat.succ.inj hlength) hpassed
        rw [List.append_assoc] at hnext
        exact hnext
      simp [List.mapM_cons, hfirst, hothers]

/-- Each name reads the value that was written for it. -/
theorem slots?_fieldsOf {names : List String} {values : List (Option Json)} (hnodup : names.Nodup)
    (hlength : values.length = names.length) :
    slots? names (.obj (fieldsOf names values)) = some values :=
  mapM_slot? names values [] hnodup hlength (by simp)

/-- A variant reads as its kind and its fields. -/
theorem variant?_variant {names : List String} (htype : "type" ∉ names) (nested : Bool)
    (kinds : List String) (kind : String) (values : List (Option Json)) :
    variant? nested kinds (.variant kind (fieldsOf names values)) =
      some (kind, .obj (fieldsOf names values)) := by
  have hother : ∀ f ∈ fieldsOf names values, f.1 ≠ "type" :=
    fun f hf heq => htype (heq ▸ mem_fieldsOf hf)
  have hkeep : (fieldsOf names values).filter (·.1 != "type") = fieldsOf names values :=
    List.filter_eq_self.mpr fun f hf => by simpa using hother f hf
  simp [variant, variant?, filter_eq_nil hother, hkeep, tagName?]

/-! ## Depth -/

theorem depthFields_append (l l' : List (String × Json)) :
    depthFields (l ++ l') = max (depthFields l) (depthFields l') := by
  induction l with
  | nil => simp [depthFields]
  | cons f rest ih =>
      simp only [List.cons_append, depthFields, ih]
      omega

/-- The value of a field lies less deep than the record. -/
theorem depth_le_depthFields : ∀ {names : List String} {values : List (Option Json)} {j : Json},
    values.length = names.length → some j ∈ values →
      j.depth ≤ depthFields (fieldsOf names values)
  | [], [], _, _, hmem => by cases hmem
  | name :: names, value :: values, j, hlength, hmem => by
      rw [fieldsOf, depthFields_append]
      rcases List.mem_cons.mp hmem with rfl | hmem
      · have hfield : depthFields (field? name (some j)) = j.depth := by
          simp [field?, depthFields]
        omega
      · have hrest : j.depth ≤ depthFields (fieldsOf names values) :=
          depth_le_depthFields (Nat.succ.inj hlength) hmem
        omega

theorem depthItems_le {items : List Json} {depth : Nat} (h : (arr items).depth ≤ depth) :
    depthItems items ≤ depth := by
  rw [Json.depth] at h
  omega

theorem depth_variant (kind : String) (l : List (String × Json)) :
    (variant kind l).depth = depthFields l + 1 := by
  simp [variant, depth, depthFields]

/-- A variant is read by the reader of its kind, with depth enough for what is inside it. -/
theorem variantWithin?_variant {kinds : List String}
    {ofFields? : (Json → Option α) → String → Json → Option α} (kind : String)
    (names : List String) (values : List (Option Json)) (htype : "type" ∉ names)
    (hlength : values.length = names.length) {depth : Nat}
    (hdepth : (variant kind (fieldsOf names values)).depth ≤ depth) (nested : Bool) :
    ∃ inside, (∀ j, some j ∈ values → j.depth ≤ inside) ∧
      variantWithin? kinds ofFields? depth nested (variant kind (fieldsOf names values)) =
        ofFields? (variantWithin? kinds ofFields? inside true) kind
          (.obj (fieldsOf names values)) := by
  rw [depth_variant] at hdepth
  obtain ⟨inside, rfl⟩ : ∃ inside, depth = inside + 1 := ⟨depth - 1, by omega⟩
  refine ⟨inside, fun j hj => ?_, ?_⟩
  · have hfield := depth_le_depthFields hlength hj
    omega
  · simp only [variantWithin?, variant?_variant htype]
    rfl

/-- A variant that has no other of its sort inside is read whatever reads those. -/
theorem variantWithin?_leaf {kinds : List String}
    {ofFields? : (Json → Option α) → String → Json → Option α} {x : α} (kind : String)
    (names : List String) (values : List (Option Json)) (htype : "type" ∉ names)
    (hlength : values.length = names.length) {depth : Nat}
    (hdepth : (variant kind (fieldsOf names values)).depth ≤ depth) (nested : Bool)
    (h : ∀ inner, ofFields? inner kind (.obj (fieldsOf names values)) = some x) :
    variantWithin? kinds ofFields? depth nested (variant kind (fieldsOf names values)) =
      some x := by
  obtain ⟨inside, -, hwithin⟩ := variantWithin?_variant kind names values htype hlength hdepth
    nested
  rw [hwithin, h]

/-! ## Values -/

/-- A value is written so that it reads back, and not as null. -/
structure Restores (read : Json → Option α) (write : α → Json) (x : α) : Prop where
  ne_null : write x ≠ .null
  read_write : read (write x) = some x

section Slots

variable {read : Json → Option α} {write : α → Json}

theorem required_eq {j : Json} {x : α} (h : read j = some x) : required read (some j) = some x :=
  h

theorem required_some {x : α} (h : Restores read write x) :
    required read (some (write x)) = some x :=
  h.read_write

theorem required_arr (items : List Json) :
    required (list? read) (some (.arr items)) = items.mapM read := rfl

theorem defaulted_arr (items : List Json) (value : List α) :
    defaulted (list? read) value (some (.arr items)) = items.mapM read := rfl

theorem defaulted_some {x : α} (h : Restores read write x) (value : α) :
    defaulted read value (some (write x)) = some x :=
  h.read_write

theorem optional_map {value : Option α} (h : ∀ x ∈ value, Restores read write x) :
    optional read (value.map write) = some value := by
  cases value with
  | none => rfl
  | some x =>
      obtain ⟨hnull, hread⟩ := h x rfl
      simp only [Option.map_some]
      generalize write x = j at hnull hread
      cases j with
      | null => exact absurd rfl hnull
      | _ => simp [optional, hread]

theorem list?_map {l : List α} (h : ∀ x ∈ l, Restores read write x) :
    Restores (list? read) (fun l => .arr (l.map write)) l where
  ne_null := by simp
  read_write := by
    simp only [list?]
    induction l with
    | nil => rfl
    | cons x rest ih =>
        obtain ⟨hx, hrest⟩ := List.forall_mem_cons.mp h
        simp [List.mapM_cons, hx.read_write, ih hrest]

/-- A table whose values are read as others is read as the table of those. -/
theorem table?_of_read {β : Type} {read : Json → Option β} {write : α → Json} {f : α → β}
    {t : Table α} (h : ∀ e ∈ t.entries, read (write e.2) = some (f e.2)) :
    table? read (.obj (t.mapValues fun _ x => write x).entries) =
      some (t.mapValues fun _ x => f x) := by
  have hentries : ((t.mapValues fun _ x => write x).entries.mapM fun field =>
      (read field.2).map fun value => (field.1, value)) =
        some (t.mapValues fun _ x => f x).entries := by
    simp only [Table.mapValues]
    generalize t.entries = entries at h
    induction entries with
    | nil => rfl
    | cons e rest ih =>
        obtain ⟨he, hrest⟩ := List.forall_mem_cons.mp h
        simp [List.mapM_cons, he, ih hrest]
  rw [table?, hentries, Option.map_some, Table.ofList_entries]

theorem table?_mapValues {t : Table α} (h : ∀ e ∈ t.entries, Restores read write e.2) :
    Restores (table? read) (fun t => .obj (t.mapValues fun _ x => write x).entries) t where
  ne_null := by simp
  read_write := by
    rw [table?_of_read (f := id) fun e he => (h e he).read_write]
    exact congrArg some (Table.ext (List.map_id _))

end Slots

theorem restores_str (s : String) : Restores str? .str s := ⟨nofun, rfl⟩

theorem restores_bool (b : Bool) : Restores bool? .bool b := ⟨nofun, rfl⟩

theorem restores_float {x : Float} (h : x.isFinite = true) : Restores float? ofFloat x := by
  have hfloat : ofFloat x = .float x := if_pos h
  constructor
  · rw [hfloat]
    exact nofun
  · rw [hfloat]
    rfl

theorem intWithin?_int {low high n : Int} (hlow : low ≤ n) (hhigh : n ≤ high) :
    intWithin? low high (.int n) = some n :=
  if_pos ⟨hlow, hhigh⟩

theorem restores_uint64 (n : UInt64) : Restores uint64? ofUInt64 n := by
  refine ⟨nofun, ?_⟩
  have hbound : n.toNat < UInt64.size := n.toNat_lt_size
  rw [uint64?, ofUInt64, intWithin?_int (by omega) (by omega)]
  simp

theorem restores_uint32 (n : UInt32) : Restores uint32? ofUInt32 n := by
  refine ⟨nofun, ?_⟩
  have hbound : n.toNat < UInt32.size := n.toNat_lt_size
  rw [uint32?, ofUInt32, intWithin?_int (by omega) (by omega)]
  simp

theorem restores_int64 (n : Int64) : Restores int64? ofInt64 n := by
  refine ⟨nofun, ?_⟩
  rw [int64?, ofInt64, intWithin?_int n.minValue_le_toInt n.toInt_le]
  simp

/-- A name out of several is read by the function that knows them. -/
theorem restores_name {name : α → String} {ofName? : String → Option α} {x : α}
    (h : ofName? (name x) = some x) (nested : Bool) :
    Restores (name? nested ofName?) (fun x => .str (name x)) x :=
  ⟨nofun, h⟩

end Storybook.Json
