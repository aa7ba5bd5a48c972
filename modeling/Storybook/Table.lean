/-
# `Storybook.Table` — finite maps from names, kept in the order of the names

A table holds its entries in strictly ascending order of their names, so that two tables
with the same entries are equal and every walk through a table has one order.  The order is
that of the code points, which is also the order of the UTF-8 bytes.

The operations are stated through `find?`: what a name finds after `insert`, `erase` and
`adjust`.
-/

namespace Storybook

/-- The names of a list of entries strictly ascend. -/
abbrev Ascending {α : Type u} (entries : List (String × α)) : Prop :=
  entries.Pairwise fun a b => a.1 < b.1

/-- A finite map from names. -/
structure Table (α : Type u) where
  entries : List (String × α)
  ascending : Ascending entries

namespace Table

variable {α : Type u} {β : Type v}

@[ext]
theorem ext {s t : Table α} (h : s.entries = t.entries) : s = t := by
  cases s; cases t; simp_all

def empty : Table α := ⟨[], .nil⟩

instance : Inhabited (Table α) := ⟨empty⟩

instance : EmptyCollection (Table α) := ⟨empty⟩

instance [DecidableEq α] : DecidableEq (Table α) := fun s t =>
  decidable_of_iff (s.entries = t.entries) ⟨ext, fun h => h ▸ rfl⟩

instance [Repr α] : Repr (Table α) := ⟨fun t n => reprPrec t.entries n⟩

/-- The value of the first entry with a name. -/
def findEntry (name : String) : List (String × α) → Option α
  | [] => none
  | e :: rest => if name = e.1 then some e.2 else findEntry name rest

/-- The value under a name. -/
def find? (t : Table α) (name : String) : Option α := findEntry name t.entries

def contains (t : Table α) (name : String) : Bool := (t.find? name).isSome

/-- The names, in ascending order. -/
def names (t : Table α) : List String := t.entries.map (·.1)

def size (t : Table α) : Nat := t.entries.length

def isEmpty (t : Table α) : Bool := t.entries.isEmpty

/-! ## Writing one entry -/

/-- The entries with `value` under `name`, in its place or instead of the old value. -/
def insertEntry (name : String) (value : α) : List (String × α) → List (String × α)
  | [] => [(name, value)]
  | e :: rest =>
    if name < e.1 then (name, value) :: e :: rest
    else if name = e.1 then (name, value) :: rest
    else e :: insertEntry name value rest

theorem mem_insertEntry {name : String} {value : α} {l : List (String × α)} {e : String × α}
    (h : e ∈ insertEntry name value l) : e = (name, value) ∨ e ∈ l := by
  induction l with
  | nil => simpa [insertEntry] using h
  | cons d rest ih =>
    rw [insertEntry] at h
    split at h
    · simpa using h
    · split at h
      · rcases List.mem_cons.1 h with h | h
        · exact .inl h
        · exact .inr (List.mem_cons_of_mem _ h)
      · rcases List.mem_cons.1 h with h | h
        · exact .inr (h ▸ List.mem_cons_self)
        · exact (ih h).imp id (List.mem_cons_of_mem _)

/-- Of two names neither of which is below the other, both are the same. -/
theorem lt_of_not_lt_of_ne {a b : String} (h : ¬a < b) (hne : a ≠ b) : b < a :=
  Decidable.byContradiction fun h' => hne (String.le_antisymm h' h)

theorem ascending_insertEntry {l : List (String × α)} (name : String) (value : α)
    (h : Ascending l) : Ascending (insertEntry name value l) := by
  induction l with
  | nil => simp [insertEntry]
  | cons d rest ih =>
    obtain ⟨hd, hrest⟩ := List.pairwise_cons.1 h
    rw [insertEntry]
    split
    · next hlt =>
      refine List.pairwise_cons.2 ⟨fun e he => ?_, h⟩
      rcases List.mem_cons.1 he with rfl | he
      · exact hlt
      · exact String.lt_trans hlt (hd e he)
    · next hlt =>
      split
      · next heq => exact List.pairwise_cons.2 ⟨fun e he => heq ▸ hd e he, hrest⟩
      · next hne =>
        refine List.pairwise_cons.2 ⟨fun e he => ?_, ih hrest⟩
        rcases mem_insertEntry he with rfl | he
        · exact lt_of_not_lt_of_ne hlt hne
        · exact hd e he

/-- The table with `value` under `name`. -/
def insert (t : Table α) (name : String) (value : α) : Table α :=
  ⟨insertEntry name value t.entries, ascending_insertEntry name value t.ascending⟩

/-- The table without the entry under `name`. -/
def erase (t : Table α) (name : String) : Table α :=
  ⟨t.entries.filter (·.1 != name), t.ascending.filter _⟩

theorem ascending_map {l : List (String × α)} (f : String → α → β) (h : Ascending l) :
    Ascending (l.map fun e => (e.1, f e.1 e.2)) :=
  List.pairwise_map.2 h

theorem ascending_filterMap {l : List (String × α)} (f : String → α → Option β)
    (h : Ascending l) : Ascending (l.filterMap fun e => (f e.1 e.2).map fun b => (e.1, b)) := by
  refine List.Pairwise.filterMap _ (fun a b hab c hc d hd => ?_) h
  simp only [Option.map_eq_some_iff] at hc hd
  obtain ⟨_, _, rfl⟩ := hc
  obtain ⟨_, _, rfl⟩ := hd
  exact hab

/-- Every value replaced by its image. -/
def mapValues (t : Table α) (f : String → α → β) : Table β :=
  ⟨t.entries.map fun e => (e.1, f e.1 e.2), ascending_map f t.ascending⟩

/-- The entries that satisfy a test. -/
def filter (t : Table α) (keep : String → α → Bool) : Table α :=
  ⟨t.entries.filter fun e => keep e.1 e.2, t.ascending.filter _⟩

/-- The images of those values that have one. -/
def filterMap (t : Table α) (f : String → α → Option β) : Table β :=
  ⟨t.entries.filterMap fun e => (f e.1 e.2).map fun b => (e.1, b),
    ascending_filterMap f t.ascending⟩

/-- The table of a list of entries, of which the later ones win. -/
def ofList (entries : List (String × α)) : Table α :=
  entries.foldl (fun t e => t.insert e.1 e.2) empty

/-- The table with the value under `name`, if there is one, replaced by its image. -/
def adjust (t : Table α) (name : String) (f : α → α) : Table α :=
  t.mapValues fun other value => if other = name then f value else value

/-! ## What a name finds -/

@[simp] theorem find?_empty (name : String) : (empty : Table α).find? name = none := rfl

theorem findEntry_insertEntry (l : List (String × α)) (name other : String) (value : α) :
    findEntry other (insertEntry name value l) =
      if other = name then some value else findEntry other l := by
  induction l with
  | nil => rfl
  | cons d rest ih =>
    rw [insertEntry]
    split
    · rfl
    · split
      · next heq => by_cases h : other = name <;> simp_all [findEntry]
      · next hne =>
        rw [findEntry, findEntry, ih]
        by_cases h : other = name
        · subst h; simp [hne]
        · simp [h]

theorem find?_insert (t : Table α) (name other : String) (value : α) :
    (t.insert name value).find? other = if other = name then some value else t.find? other :=
  findEntry_insertEntry t.entries name other value

@[simp] theorem find?_insert_self (t : Table α) (name : String) (value : α) :
    (t.insert name value).find? name = some value := by
  simp [find?_insert]

theorem findEntry_filter_ne (l : List (String × α)) (name other : String) :
    findEntry other (l.filter (·.1 != name)) =
      if other = name then none else findEntry other l := by
  induction l with
  | nil => simp [findEntry]
  | cons d rest ih =>
    by_cases hk : d.1 = name
    · rw [List.filter_cons_of_neg (by simp [hk]), ih, findEntry, hk]
      by_cases h : other = name <;> simp [h]
    · rw [List.filter_cons_of_pos (by simp [hk]), findEntry, findEntry, ih]
      by_cases h : other = name
      · subst h; simp [Ne.symm hk]
      · simp [h]

theorem find?_erase (t : Table α) (name other : String) :
    (t.erase name).find? other = if other = name then none else t.find? other :=
  findEntry_filter_ne t.entries name other

theorem find?_mapValues (t : Table α) (f : String → α → β) (name : String) :
    (t.mapValues f).find? name = (t.find? name).map (f name) := by
  simp only [find?, mapValues]
  induction t.entries with
  | nil => rfl
  | cons d rest ih =>
    simp only [List.map_cons, findEntry, ih]
    by_cases h : name = d.1
    · subst h; simp
    · simp [h]

theorem find?_adjust (t : Table α) (name other : String) (f : α → α) :
    (t.adjust name f).find? other =
      if other = name then (t.find? name).map f else t.find? other := by
  rw [adjust, find?_mapValues]
  by_cases h : other = name
  · subst h; simp
  · simp [h]

/-- A name below all names of a list is not among them. -/
theorem findEntry_eq_none {l : List (String × α)} {name : String} (h : ∀ e ∈ l, name < e.1) :
    findEntry name l = none := by
  induction l with
  | nil => rfl
  | cons d rest ih =>
    have hne : name ≠ d.1 := fun heq => String.lt_irrefl name (heq ▸ h d List.mem_cons_self)
    rw [findEntry, if_neg hne]
    exact ih fun e he => h e (List.mem_cons_of_mem _ he)

theorem findEntry_filterMap {l : List (String × α)} (h : Ascending l) (f : String → α → Option β)
    (name : String) :
    findEntry name (l.filterMap fun e => (f e.1 e.2).map fun b => (e.1, b)) =
      (findEntry name l).bind (f name) := by
  induction l with
  | nil => rfl
  | cons d rest ih =>
    obtain ⟨hd, hrest⟩ := List.pairwise_cons.1 h
    have hnext := ih hrest
    by_cases hn : name = d.1
    · -- an entry that is dropped has no second one of its name behind it
      subst hn
      rw [findEntry_eq_none hd, Option.bind_none] at hnext
      cases hf : f d.1 d.2 with
      | none => simpa [hf, findEntry] using hnext
      | some b => simp [hf, findEntry]
    · cases hf : f d.1 d.2 with
      | none => simpa [hf, findEntry, hn] using hnext
      | some b => simpa [hf, findEntry, hn] using hnext

theorem find?_filterMap (t : Table α) (f : String → α → Option β) (name : String) :
    (t.filterMap f).find? name = (t.find? name).bind (f name) :=
  findEntry_filterMap t.ascending f name

theorem filter_eq_filterMap (t : Table α) (keep : String → α → Bool) :
    t.filter keep = t.filterMap fun name a => (some a).filter (keep name) := by
  apply ext
  simp only [filter, filterMap]
  induction t.entries with
  | nil => rfl
  | cons d rest ih =>
    cases hd : keep d.1 d.2 with
    | true => simp [Option.filter_some, hd, ih]
    | false => simp [Option.filter_some, hd, ih]

theorem find?_filter (t : Table α) (keep : String → α → Bool) (name : String) :
    (t.filter keep).find? name = (t.find? name).filter (keep name) := by
  rw [filter_eq_filterMap, find?_filterMap]
  cases t.find? name with
  | none => rfl
  | some a => rfl

theorem filter_name {l : List (String × α)} (h : Ascending l) (name : String) :
    l.filter (·.1 == name) = (findEntry name l).toList.map (name, ·) := by
  induction l with
  | nil => rfl
  | cons d rest ih =>
    obtain ⟨hd, hrest⟩ := List.pairwise_cons.1 h
    have hnext := ih hrest
    by_cases hn : name = d.1
    · subst hn
      rw [findEntry_eq_none hd] at hnext
      rw [List.filter_cons_of_pos (by simp), hnext, findEntry, if_pos rfl]
      rfl
    · rw [List.filter_cons_of_neg (by simpa using Ne.symm hn), hnext, findEntry, if_neg hn]

/-- A name has one entry at most: the one that it finds. -/
theorem filter_entries (t : Table α) (name : String) :
    t.entries.filter (·.1 == name) = (t.find? name).toList.map (name, ·) :=
  filter_name t.ascending name

theorem mem_entries_iff (t : Table α) (e : String × α) :
    e ∈ t.entries ↔ t.find? e.1 = some e.2 := by
  have hown : e ∈ t.entries ↔ e ∈ t.entries.filter (·.1 == e.1) := by simp
  rw [hown, filter_entries]
  simp [Prod.ext_iff]

theorem mem_names_iff (t : Table α) (name : String) :
    name ∈ t.names ↔ (t.find? name).isSome = true := by
  rw [Option.isSome_iff_exists]
  constructor
  · intro h
    obtain ⟨e, he, rfl⟩ := List.mem_map.1 h
    exact ⟨e.2, (t.mem_entries_iff e).1 he⟩
  · rintro ⟨value, hfind⟩
    exact List.mem_map.2 ⟨(name, value), (t.mem_entries_iff _).2 hfind, rfl⟩

theorem nodup_names (t : Table α) : t.names.Nodup := by
  refine List.pairwise_map.2 (t.ascending.imp ?_)
  intro d e hlt heq
  exact String.lt_irrefl _ (heq ▸ hlt)

/-- Lists of ascending entries in which every name finds the same are the same. -/
theorem eq_of_findEntry_eq : ∀ {l l' : List (String × α)}, Ascending l → Ascending l' →
    (∀ name, findEntry name l = findEntry name l') → l = l'
  | [], [], _, _, _ => rfl
  | [], e :: rest, _, _, h => by
      have hnone := h e.1
      simp [findEntry] at hnone
  | d :: rest, [], _, _, h => by
      have hsome := h d.1
      simp [findEntry] at hsome
  | d :: rest, e :: rest', hl, hl', h => by
      obtain ⟨hd, hrest⟩ := List.pairwise_cons.1 hl
      obtain ⟨he, hrest'⟩ := List.pairwise_cons.1 hl'
      have hname : d.1 = e.1 := by
        -- the lower of two different first names would be missing on the other side
        refine Decidable.byContradiction fun hne => ?_
        by_cases hlt : d.1 < e.1
        · have hmissing : findEntry d.1 (e :: rest') = none :=
            findEntry_eq_none (List.forall_mem_cons.2
              ⟨hlt, fun f hf => String.lt_trans hlt (he f hf)⟩)
          have hfound := h d.1
          rw [hmissing] at hfound
          simp [findEntry] at hfound
        · have hgt : e.1 < d.1 := lt_of_not_lt_of_ne hlt hne
          have hmissing : findEntry e.1 (d :: rest) = none :=
            findEntry_eq_none (List.forall_mem_cons.2
              ⟨hgt, fun f hf => String.lt_trans hgt (hd f hf)⟩)
          have hfound := h e.1
          rw [hmissing] at hfound
          simp [findEntry] at hfound
      have hvalue : d.2 = e.2 := by
        have hboth := h d.1
        simpa [findEntry, hname] using hboth
      have htail : rest = rest' := by
        refine eq_of_findEntry_eq hrest hrest' fun name => ?_
        by_cases hn : name = d.1
        · rw [hn, findEntry_eq_none hd, hname, findEntry_eq_none he]
        · have hboth := h name
          rwa [findEntry, findEntry, if_neg hn, if_neg (hname ▸ hn)] at hboth
      rw [htail, Prod.ext hname hvalue]

/-- A table is determined by what the names find in it. -/
theorem ext_find? {s t : Table α} (h : ∀ name, s.find? name = t.find? name) : s = t :=
  ext (eq_of_findEntry_eq s.ascending t.ascending h)

theorem isEmpty_iff (t : Table α) :
    t.isEmpty = true ↔ ∀ name, t.find? name = none := by
  constructor
  · intro h name
    have hentries : t.entries = [] := List.isEmpty_iff.mp h
    rw [find?, hentries]
    rfl
  · intro h
    have hempty : t = empty := ext_find? h
    rw [hempty]
    rfl

@[simp] theorem isEmpty_insert (t : Table α) (name : String) (value : α) :
    (t.insert name value).isEmpty = false := by
  refine Bool.eq_false_iff.mpr fun hempty => ?_
  have hnone := (isEmpty_iff _).mp hempty name
  rw [find?_insert_self] at hnone
  cases hnone

theorem contains_insert (t : Table α) (name other : String) (value : α) :
    (t.insert name value).contains other = (other == name || t.contains other) := by
  simp only [contains, find?_insert]
  by_cases h : other = name <;> simp [h]

theorem contains_foldl_insert (l : List (String × α)) (t : Table α) (name : String) :
    (l.foldl (fun t e => t.insert e.1 e.2) t).contains name = true ↔
      name ∈ l.map (·.1) ∨ t.contains name = true := by
  induction l generalizing t with
  | nil => simp
  | cons e rest ih =>
    rw [List.foldl_cons, ih, contains_insert, List.map_cons, List.mem_cons, Bool.or_eq_true,
      beq_iff_eq]
    constructor
    · rintro (h | h | h)
      · exact .inl (.inr h)
      · exact .inl (.inl h)
      · exact .inr h
    · rintro ((h | h) | h)
      · exact .inr (.inl h)
      · exact .inl h
      · exact .inr (.inr h)

/-- The names of the entries that a table is made of are its names. -/
theorem contains_ofList (l : List (String × α)) (name : String) :
    (ofList l).contains name = true ↔ name ∈ l.map (·.1) := by
  rw [ofList, contains_foldl_insert]
  simp [contains]

theorem mem_insert (t : Table α) (name : String) (value : α) (e : String × α) :
    e ∈ (t.insert name value).entries ↔ e = (name, value) ∨ e ∈ t.entries ∧ e.1 ≠ name := by
  rw [mem_entries_iff, find?_insert, mem_entries_iff, Prod.ext_iff]
  by_cases h : e.1 = name
  · simp [h, eq_comm]
  · simp [h]

theorem mem_foldl_insert {l : List (String × α)} {t : Table α}
    (hnodup : (l.map (·.1)).Nodup) (hnew : ∀ d ∈ l, t.find? d.1 = none) (e : String × α) :
    e ∈ (l.foldl (fun t d => t.insert d.1 d.2) t).entries ↔ e ∈ t.entries ∨ e ∈ l := by
  induction l generalizing t with
  | nil => simp
  | cons d rest ih =>
    obtain ⟨hd, hrest⟩ := List.forall_mem_cons.mp hnew
    obtain ⟨hfirst, hnodup⟩ := List.nodup_cons.mp hnodup
    have hnext : ∀ f ∈ rest, (t.insert d.1 d.2).find? f.1 = none := by
      intro f hf
      rw [find?_insert, if_neg fun heq => hfirst (List.mem_map.mpr ⟨f, hf, heq⟩)]
      exact hrest f hf
    have hold : e ∈ t.entries → e.1 ≠ d.1 := by
      intro he heq
      rw [mem_entries_iff, heq, hd] at he
      exact nomatch he
    rw [List.foldl_cons, ih hnodup hnext, mem_insert, List.mem_cons, and_iff_left_of_imp hold,
      or_comm (a := e = d), or_assoc]

/-- Entries with different names are all kept. -/
theorem mem_ofList {l : List (String × α)} (h : (l.map (·.1)).Nodup) (e : String × α) :
    e ∈ (ofList l).entries ↔ e ∈ l := by
  rw [ofList, mem_foldl_insert h fun _ _ => rfl]
  exact or_iff_right List.not_mem_nil

/-! ## Tables of their own entries -/

/-- A name above all names of a list goes to its end. -/
theorem insertEntry_eq_append {l : List (String × α)} {name : String} (h : ∀ e ∈ l, e.1 < name)
    (value : α) : insertEntry name value l = l ++ [(name, value)] := by
  induction l with
  | nil => rfl
  | cons d rest ih =>
    have hd : d.1 < name := h d List.mem_cons_self
    have hnlt : ¬name < d.1 := fun h' => String.lt_irrefl name (String.lt_trans h' hd)
    have hne : name ≠ d.1 := fun heq => String.lt_irrefl name (heq ▸ hd)
    rw [insertEntry, if_neg hnlt, if_neg hne, ih fun e he => h e (List.mem_cons_of_mem _ he)]
    rfl

theorem entries_foldl_insert (l : List (String × α)) (t : Table α)
    (h : Ascending (t.entries ++ l)) :
    (l.foldl (fun t e => t.insert e.1 e.2) t).entries = t.entries ++ l := by
  induction l generalizing t with
  | nil => simp
  | cons e rest ih =>
    have hbelow : ∀ d ∈ t.entries, d.1 < e.1 := fun d hd =>
      (List.pairwise_append.1 h).2.2 d hd e List.mem_cons_self
    have hinsert : (t.insert e.1 e.2).entries = t.entries ++ [e] :=
      insertEntry_eq_append hbelow e.2
    rw [List.foldl_cons, ih _ (by rw [hinsert]; simpa using h), hinsert]
    simp

theorem ofList_entries (t : Table α) : ofList t.entries = t :=
  ext (entries_foldl_insert t.entries empty t.ascending)

end Table

end Storybook
