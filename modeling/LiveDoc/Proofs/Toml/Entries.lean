/-
What is found in a document, and how a line changes it.

A document is looked through along a path of keys, on which an array of tables stands for the
last of them.  Every line puts one value at the end of one path.  `Placed` says of two documents
that this is how they differ: tables that were missing on the path have been created, tables
that were there are of the kind they were, and beside the path nothing is changed.
-/
import LiveDoc.Toml.Document

namespace LiveDoc
namespace Toml

/-! ## One key -/

/-- The entries with a value under a key, which may be there or not. -/
def put (key : String) (value : Value) (entries : Entries) : Entries :=
  match entries.lookup key with
  | none => entries ++ [(key, value)]
  | some _ => Entries.set key value entries

theorem put_of_none {key : String} {entries : Entries} (h : entries.lookup key = none)
    (value : Value) : put key value entries = entries ++ [(key, value)] := by
  rw [put, h]

theorem put_of_some {key : String} {entries : Entries} {old : Value}
    (h : entries.lookup key = some old) (value : Value) :
    put key value entries = Entries.set key value entries := by
  rw [put, h]

theorem lookup_set_self {key : String} {entries : Entries} {old : Value}
    (h : entries.lookup key = some old) (value : Value) :
    (Entries.set key value entries).lookup key = some value := by
  induction entries with
  | nil => cases h
  | cons e entries ih =>
    obtain ⟨first, v⟩ := e
    by_cases he : first = key
    · simp [Entries.set, he]
    · have hne : (key == first) = false := beq_eq_false_iff_ne.mpr (Ne.symm he)
      rw [List.lookup_cons, hne] at h
      simpa [Entries.set, List.lookup_cons, he, hne] using ih h

theorem lookup_set_of_ne {key other : String} (hne : other ≠ key) (value : Value)
    (entries : Entries) : (Entries.set key value entries).lookup other = entries.lookup other := by
  induction entries with
  | nil => rfl
  | cons e entries ih =>
    obtain ⟨first, v⟩ := e
    have hkey : (other == key) = false := beq_eq_false_iff_ne.mpr hne
    by_cases he : first = key
    · simpa [Entries.set, List.lookup_cons, he, hkey] using ih
    · simp only [Entries.set, List.map_cons, if_neg he, List.lookup_cons] at ih ⊢
      rw [ih]

theorem lookup_put_self (key : String) (value : Value) (entries : Entries) :
    (put key value entries).lookup key = some value := by
  cases h : entries.lookup key with
  | none => simp [put_of_none h, List.lookup_append, h]
  | some old => rw [put_of_some h, lookup_set_self h]

theorem lookup_put_of_ne {key other : String} (hne : other ≠ key) (value : Value)
    (entries : Entries) : (put key value entries).lookup other = entries.lookup other := by
  cases h : entries.lookup key with
  | none =>
    have hother : (other == key) = false := beq_eq_false_iff_ne.mpr hne
    simp [put_of_none h, List.lookup_append, List.lookup_cons, hother]
  | some old => rw [put_of_some h, lookup_set_of_ne hne]

/-! ## Paths -/

/-- How a value can be extended by lines below it. -/
inductive Kind where
  /-- It is complete. -/
  | value
  | table (origin : Origin)
  | array
deriving DecidableEq

namespace Value

variable {v : Value} {inner : Entries}

def kind : Value → Kind
  | .tables (_ :: _) => .array
  | .table .inline _ => .value
  | .table origin _ => .table origin
  | _ => .value

def entries? : Value → Option Entries
  | .tables items => items.getLast?
  | .table .inline _ => none
  | .table _ entries => some entries
  | _ => none

def withEntries (v : Value) (entries : Entries) : Value :=
  match v with
  | .tables items => .tables (items.dropLast ++ [entries])
  | .table origin _ => .table origin entries
  | v => v

def items : Value → List Entries
  | .tables items => items
  | _ => []

theorem exists_entries (h : v.kind ≠ .value) : ∃ inner, v.entries? = some inner := by
  cases v with
  | tables items =>
    cases items with
    | nil => exact absurd rfl h
    | cons t items => exact ⟨_, List.getLast?_eq_some_getLast (List.cons_ne_nil t items)⟩
  | table origin inner =>
    cases origin with
    | inline => exact absurd rfl h
    | _ => exact ⟨inner, rfl⟩
  | _ => exact absurd rfl h

theorem entries?_of_kind (h : v.kind = .value) : v.entries? = none := by
  cases v with
  | tables items =>
    cases items with
    | nil => rfl
    | cons t items => cases h
  | table origin inner =>
    cases origin with
    | inline => rfl
    | _ => cases h
  | _ => rfl

theorem entries?_withEntries (h : v.entries? = some inner) (entries : Entries) :
    (v.withEntries entries).entries? = some entries := by
  cases v with
  | tables items => exact List.getLast?_concat
  | table origin old =>
    cases origin with
    | inline => cases h
    | header => rfl
    | implied => rfl
    | dotted => rfl
  | _ => cases h

theorem kind_withEntries (h : v.entries? = some inner) (entries : Entries) :
    (v.withEntries entries).kind = v.kind := by
  cases v with
  | tables items =>
    cases items with
    | nil => cases h
    | cons t items => cases items <;> rfl
  | table origin old => cases origin <;> rfl
  | _ => cases h

theorem eq_table_of_kind {origin : Origin} (h : v.kind = .table origin) :
    ∃ inner, v = .table origin inner := by
  cases v with
  | tables items => cases items <;> cases h
  | table origin' inner => cases origin' <;> cases h <;> exact ⟨inner, rfl⟩
  | _ => cases h

/-- Only a table that is written as a value is closed. -/
theorem entries?_of_table {origin : Origin} (h : (table origin inner).kind = .table origin) :
    (table origin inner).entries? = some inner := by
  cases origin with
  | inline => cases h
  | _ => rfl

end Value

def find? : List String → Value → Option Value
  | [], v => some v
  | key :: path, v => (v.entries?.bind fun entries => entries.lookup key).bind (find? path)

theorem find?_cons {v : Value} {inner : Entries} (h : v.entries? = some inner) (key : String)
    (path : List String) : find? (key :: path) v = (inner.lookup key).bind (find? path) := by
  rw [find?, h, Option.bind_some]

theorem find?_append (path more : List String) (v : Value) :
    find? (path ++ more) v = (find? path v).bind (find? more) := by
  induction path generalizing v with
  | nil => rfl
  | cons key path ih =>
    have hrest : find? (path ++ more) = fun w => (find? path w).bind (find? more) := funext ih
    show Option.bind _ (find? (path ++ more)) = (Option.bind _ (find? path)).bind (find? more)
    rw [hrest, Option.bind_assoc (f := find? path)]

theorem find?_of_entries?_none {v : Value} (h : v.entries? = none) {path : List String}
    (hpath : path ≠ []) : find? path v = none := by
  obtain ⟨key, path, rfl⟩ := List.exists_cons_of_ne_nil hpath
  rw [find?, h]
  rfl

/-! ## Placing a value -/

/-- The value is what was there before with `new` placed at the end of a path.  Tables that were
missing on it have the origin `o`. -/
structure Placed (o : Origin) (path : List String) (new : Value) (old : Option Value)
    (v : Value) : Prop where
  at_path : find? path v = some new
  on_path : ∀ r, r <+: path → r ≠ path →
    (find? r v).map Value.kind = some (((old.bind (find? r)).map Value.kind).getD (.table o))
  beside : ∀ r, ¬ r <+: path → ¬ path <+: r → find? r v = old.bind (find? r)

variable {o : Origin} {path : List String} {new : Value} {old : Option Value}

theorem Placed.nil (old : Option Value) (v : Value) : Placed o [] v old v where
  at_path := rfl
  on_path _ hr hne := absurd (List.prefix_nil.mp hr) hne
  beside _ _ hne := absurd List.nil_prefix hne

theorem bind_find?_nil (old : Option Value) : old.bind (find? []) = old :=
  Option.bind_fun_some old

/-- What was below a value that may have been missing. -/
theorem bind_find?_cons {inner : Entries} (h : (old.getD (.table o [])).entries? = some inner)
    (key : String) (r : List String) :
    old.bind (find? (key :: r)) = (inner.lookup key).bind (find? r) := by
  cases old with
  | none =>
    cases o <;> cases h <;> rfl
  | some v => exact find?_cons h key r

theorem Placed.cons {inner : Entries} {key : String} {v : Value}
    (hinner : (old.getD (.table o [])).entries? = some inner)
    (h : Placed o path new (inner.lookup key) v) :
    Placed o (key :: path) new old ((old.getD (.table o [])).withEntries (put key v inner)) := by
  have hentries := Value.entries?_withEntries hinner (put key v inner)
  have hsame := find?_cons hentries key
  simp only [lookup_put_self, Option.bind_some] at hsame
  constructor
  · rw [hsame]
    exact h.at_path
  · intro r hr hne
    cases r with
    | nil =>
      show some ((old.getD (.table o [])).withEntries (put key v inner)).kind = _
      rw [Value.kind_withEntries hinner]
      cases old with
      | none => cases o <;> cases hinner <;> rfl
      | some u => rfl
    | cons first r =>
      obtain ⟨rfl, hprefix⟩ := List.cons_prefix_cons.mp hr
      rw [hsame, bind_find?_cons hinner]
      exact h.on_path r hprefix fun heq => hne (by rw [heq])
  · intro r hr hpath
    cases r with
    | nil => exact absurd List.nil_prefix hr
    | cons first r =>
      rw [bind_find?_cons hinner]
      by_cases hfirst : first = key
      · subst hfirst
        rw [hsame]
        exact h.beside r (fun hprefix => hr (List.cons_prefix_cons.mpr ⟨rfl, hprefix⟩))
          fun hprefix => hpath (List.cons_prefix_cons.mpr ⟨rfl, hprefix⟩)
      · rw [find?_cons hentries, lookup_put_of_ne hfirst]

/-- Where what is found comes from: the value that was placed, what was there, or a table that
was missing. -/
theorem Placed.cases {v u : Value} {r : List String} (h : Placed o path new old v)
    (hr : find? r v = some u) :
    (∃ more, r = path ++ more ∧ find? more new = some u) ∨
      (¬ path <+: r ∧ ∃ w, old.bind (find? r) = some w ∧ w.kind = u.kind) ∨
      (old.bind (find? r) = none ∧ r <+: path ∧ r ≠ path ∧ u.kind = .table o) := by
  by_cases hpath : path <+: r
  · obtain ⟨more, rfl⟩ := hpath
    rw [find?_append, h.at_path] at hr
    exact Or.inl ⟨more, rfl, hr⟩
  by_cases hprefix : r <+: path
  · have hne : r ≠ path := fun heq => hpath (heq ▸ List.prefix_refl r)
    have hkind := h.on_path r hprefix hne
    rw [hr, Option.map_some, Option.some.injEq] at hkind
    cases hold : old.bind (find? r) with
    | none =>
      rw [hold] at hkind
      exact Or.inr (Or.inr ⟨rfl, hprefix, hne, hkind⟩)
    | some w =>
      rw [hold] at hkind
      exact Or.inr (Or.inl ⟨hpath, w, rfl, hkind.symm⟩)
  · rw [h.beside r hprefix hpath] at hr
    exact Or.inr (Or.inl ⟨hpath, u, hr, rfl⟩)

/-- What was there is of the kind it was, but for what is below the path. -/
theorem Placed.exists_kind {v w : Value} {r : List String} (h : Placed o path new old v)
    (hr : ¬ path <+: r) (hw : old.bind (find? r) = some w) :
    ∃ u, find? r v = some u ∧ u.kind = w.kind := by
  by_cases hprefix : r <+: path
  · have hkind := h.on_path r hprefix fun heq => hr (heq ▸ List.prefix_refl r)
    rw [hw, Option.map_eq_some_iff] at hkind
    exact hkind
  · exact ⟨w, by rw [h.beside r hprefix hr, hw], rfl⟩

/-! ## Entering a value -/

theorem enter_flag (value : Value) (path : List String) (b c : Bool) (entries : Entries) :
    enter value path b entries = enter value path c entries := by
  rcases path with _ | ⟨key, _ | ⟨key', path⟩⟩ <;> rfl

theorem enter_last {key : String} {entries : Entries} (h : entries.lookup key = none)
    (value : Value) (b : Bool) : enter value [key] b entries = some (put key value entries) := by
  rw [put_of_none h]
  show (match entries.lookup key with
    | none => some (entries ++ [(key, value)])
    | some _ => none) = _
  rw [h]

theorem enter_inside {key : String} {entries inner : Entries}
    (h : (entries.lookup key).getD (.table .dotted []) = .table .dotted inner)
    {path : List String} (hpath : path ≠ []) (value : Value) (b : Bool) :
    enter value (key :: path) b entries =
      (enter value path b inner).map fun inner => put key (.table .dotted inner) entries := by
  obtain ⟨next, path, rfl⟩ := List.exists_cons_of_ne_nil hpath
  rw [enter_flag value (next :: path) b true, enter]
  · cases hkey : entries.lookup key with
    | none =>
      rw [hkey] at h
      cases h
      simp only [put_of_none hkey]
    | some v =>
      rw [hkey] at h
      cases h
      simp only [put_of_some hkey]
  · nofun

/-- A value can be entered where there is none, if all that is on the way to it came about by
dotted keys. -/
theorem exists_enter (hpath : path ≠ []) {inner : Entries}
    (hinner : (old.getD (.table .dotted [])).entries? = some inner)
    (hon : ∀ r, r <+: path → r ≠ [] → r ≠ path →
      ∀ v ∈ old.bind (find? r), v.kind = .table .dotted)
    (hat : old.bind (find? path) = none) (value : Value) (b : Bool) :
    ∃ inner', enter value path b inner = some inner' ∧
      Placed .dotted path value old ((old.getD (.table .dotted [])).withEntries inner') := by
  induction path generalizing old inner with
  | nil => exact absurd rfl hpath
  | cons key path ih =>
    have hbelow := bind_find?_cons hinner key
    by_cases hlast : path = []
    · subst hlast
      have hnone : inner.lookup key = none := by
        rw [hbelow] at hat
        cases hkey : inner.lookup key with
        | none => rfl
        | some v =>
          rw [hkey] at hat
          cases hat
      exact ⟨_, enter_last hnone value b, Placed.cons hinner (Placed.nil _ value)⟩
    · obtain ⟨inner₁, hinner₁⟩ :
          ∃ inner₁, (inner.lookup key).getD (.table .dotted []) = .table .dotted inner₁ := by
        cases hkey : inner.lookup key with
        | none => exact ⟨[], rfl⟩
        | some v =>
          refine Value.eq_table_of_kind (hon [key] ?_ (List.cons_ne_nil _ _) ?_ v ?_)
          · exact List.cons_prefix_cons.mpr ⟨rfl, List.nil_prefix⟩
          · exact fun heq => hlast (List.cons.inj heq).2.symm
          · rw [hbelow, hkey]
            rfl
      have hon₁ : ∀ r, r <+: path → r ≠ [] → r ≠ path →
          ∀ v ∈ (inner.lookup key).bind (find? r), v.kind = .table .dotted := by
        intro r hr _ hne v hv
        rw [← hbelow] at hv
        exact hon (key :: r) (List.cons_prefix_cons.mpr ⟨rfl, hr⟩) (List.cons_ne_nil _ _)
          (fun heq => hne (List.cons.inj heq).2) v hv
      obtain ⟨inner', henter, hplaced⟩ :=
        ih hlast (by rw [hinner₁]; rfl) hon₁ (by rw [← hbelow, hat])
      rw [hinner₁] at hplaced
      exact ⟨_, by rw [enter_inside hinner₁ hlast, henter]; rfl, Placed.cons hinner hplaced⟩

/-! ## Changing a table -/

theorem changeLast_eq (f : Entries → Option Entries) {items : List Entries} {t : Entries}
    (h : items.getLast? = some t) :
    changeLast f items = (f t).map fun t => items.dropLast ++ [t] := by
  induction items with
  | nil => cases h
  | cons first items ih =>
    cases items with
    | nil =>
      obtain rfl := Option.some.inj h
      rfl
    | cons next items =>
      rw [List.getLast?_cons_cons] at h
      rw [changeLast, ih h, Option.map_map]
      · rfl
      · nofun

theorem change_cons (f : Entries → Option Entries) {key : String} {entries inner : Entries}
    (h : ((entries.lookup key).getD (.table .implied [])).entries? = some inner)
    (path : List String) :
    change f (key :: path) entries = (change f path inner).map fun inner =>
      put key (((entries.lookup key).getD (.table .implied [])).withEntries inner) entries := by
  cases hkey : entries.lookup key with
  | none =>
    rw [hkey] at h
    cases h
    simp only [change, hkey, put_of_none hkey]
    rfl
  | some v =>
    rw [hkey] at h
    simp only [change, hkey, put_of_some hkey]
    cases v with
    | tables items =>
      simp only [changeLast_eq (change f path) h, Option.map_map]
      rfl
    | table origin old =>
      cases origin with
      | inline => cases h
      | header => cases h; rfl
      | implied => cases h; rfl
      | dotted => cases h; rfl
    | _ => cases h

/-- If a table can be changed so that a value is placed in it, so can the document it is in. -/
theorem exists_change {f : Entries → Option Entries} {rest : List String} {inner : Entries}
    (hinner : (old.getD (.table .implied [])).entries? = some inner)
    (hpass : ∀ r, r <+: path → ∀ v ∈ old.bind (find? r), v.kind ≠ .value)
    (ho : old.bind (find? path) = none → o = .implied)
    (hf : ∀ inner, ((old.bind (find? path)).getD (.table .implied [])).entries? = some inner →
      ∃ inner', f inner = some inner' ∧ Placed o rest new (old.bind (find? path))
        (((old.bind (find? path)).getD (.table .implied [])).withEntries inner')) :
    ∃ inner', change f path inner = some inner' ∧
      Placed o (path ++ rest) new old ((old.getD (.table .implied [])).withEntries inner') := by
  induction path generalizing old inner with
  | nil =>
    rw [bind_find?_nil] at hf
    exact hf inner hinner
  | cons key path ih =>
    have hbelow := bind_find?_cons hinner key
    obtain ⟨inner₁, hinner₁⟩ :
        ∃ inner₁, ((inner.lookup key).getD (.table .implied [])).entries? = some inner₁ := by
      cases hkey : inner.lookup key with
      | none => exact ⟨[], rfl⟩
      | some v =>
        refine Value.exists_entries (hpass [key] ?_ v ?_)
        · exact List.cons_prefix_cons.mpr ⟨rfl, List.nil_prefix⟩
        · rw [hbelow, hkey]
          rfl
    have hpass₁ : ∀ r, r <+: path → ∀ v ∈ (inner.lookup key).bind (find? r), v.kind ≠ .value := by
      intro r hr v hv
      rw [← hbelow] at hv
      exact hpass (key :: r) (List.cons_prefix_cons.mpr ⟨rfl, hr⟩) v hv
    rw [hbelow] at ho hf
    obtain ⟨inner', hchange, hplaced⟩ := ih hinner₁ hpass₁ ho hf
    have hdefault : old.getD (.table .implied []) = old.getD (.table o []) := by
      cases old with
      | none => rw [ho (hbelow path).symm]
      | some v => rfl
    refine ⟨_, by rw [change_cons f hinner₁, hchange]; rfl, ?_⟩
    rw [hdefault] at hinner ⊢
    exact Placed.cons hinner hplaced

/-! ## Headers -/

def opened (old : Option Value) : Value := .table .header ((old.bind Value.entries?).getD [])

/-- Opening a table changes nothing below it. -/
theorem find?_opened (old : Option Value) {path : List String} (hpath : path ≠ []) :
    find? path (opened old) = old.bind (find? path) := by
  obtain ⟨key, path, rfl⟩ := List.exists_cons_of_ne_nil hpath
  cases old with
  | none => rfl
  | some v =>
    show ((Option.getD v.entries? []).lookup key).bind (find? path) = _
    rw [Option.bind_some, find?]
    cases v.entries? <;> rfl

def appended (old : Option Value) : Value := .tables (old.elim [] Value.items ++ [[]])

theorem kind_appended (old : Option Value) : (appended old).kind = .array := by
  show (Value.tables (old.elim [] Value.items ++ [[]])).kind = _
  cases old.elim [] Value.items <;> rfl

/-- There is nothing in the table that was added. -/
theorem find?_appended (old : Option Value) {path : List String} (hpath : path ≠ []) :
    find? path (appended old) = none := by
  obtain ⟨key, path, rfl⟩ := List.exists_cons_of_ne_nil hpath
  have hentries : (appended old).entries? = some [] := List.getLast?_concat
  rw [find?_cons hentries]
  rfl

theorem openTable_of_none {key : String} {entries : Entries} (h : entries.lookup key = none) :
    openTable key entries = some (put key (.table .header []) entries) := by
  rw [openTable, h, put_of_none h]

theorem openTable_of_implied {key : String} {entries inner : Entries}
    (h : entries.lookup key = some (.table .implied inner)) :
    openTable key entries = some (put key (.table .header inner) entries) := by
  rw [openTable, h, put_of_some h]

theorem appendTable_of_none {key : String} {entries : Entries} (h : entries.lookup key = none) :
    appendTable key entries = some (put key (.tables [[]]) entries) := by
  rw [appendTable, h, put_of_none h]

theorem appendTable_of_tables {key : String} {entries : Entries} {items : List Entries}
    (h : entries.lookup key = some (.tables items)) :
    appendTable key entries = some (put key (.tables (items ++ [[]])) entries) := by
  rw [appendTable, h, put_of_some h]

/-- The header of a table can stand where nothing is, or a table that headers have implied. -/
theorem exists_openTable {key : String} {inner : Entries}
    (hinner : (old.getD (.table .implied [])).entries? = some inner)
    (hat : ∀ v ∈ old.bind (find? [key]), v.kind = .table .implied) :
    ∃ inner', openTable key inner = some inner' ∧
      Placed .implied [key] (opened (old.bind (find? [key]))) old
        ((old.getD (.table .implied [])).withEntries inner') := by
  have hlookup : old.bind (find? [key]) = inner.lookup key := by
    rw [bind_find?_cons hinner, bind_find?_nil]
  rw [hlookup] at hat ⊢
  cases hkey : inner.lookup key with
  | none =>
    exact ⟨_, openTable_of_none hkey, Placed.cons hinner (Placed.nil _ _)⟩
  | some v =>
    obtain ⟨below, rfl⟩ := Value.eq_table_of_kind (hat v hkey)
    exact ⟨_, openTable_of_implied hkey, Placed.cons hinner (Placed.nil _ _)⟩

/-- Another table can be added to an array where nothing is, or such an array. -/
theorem exists_appendTable {key : String} {inner : Entries}
    (hinner : (old.getD (.table .implied [])).entries? = some inner)
    (hat : ∀ v ∈ old.bind (find? [key]), v.kind = .array) :
    ∃ inner', appendTable key inner = some inner' ∧
      Placed .implied [key] (appended (old.bind (find? [key]))) old
        ((old.getD (.table .implied [])).withEntries inner') := by
  have hlookup : old.bind (find? [key]) = inner.lookup key := by
    rw [bind_find?_cons hinner, bind_find?_nil]
  rw [hlookup] at hat ⊢
  cases hkey : inner.lookup key with
  | none =>
    exact ⟨_, appendTable_of_none hkey, Placed.cons hinner (Placed.nil _ _)⟩
  | some v =>
    obtain ⟨items, rfl⟩ : ∃ items, v = .tables items := by
      have hkind := hat v hkey
      cases v with
      | tables items => exact ⟨items, rfl⟩
      | table origin inner => cases origin <;> cases hkind
      | _ => cases hkind
    exact ⟨_, appendTable_of_tables hkey, Placed.cons hinner (Placed.nil _ _)⟩

end Toml
end LiveDoc
