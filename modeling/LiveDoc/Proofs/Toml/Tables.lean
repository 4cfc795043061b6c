/-
Which lines can follow one another in a document, and that their effects then succeed.

`Standing` is what the lines so far have given.  A line fits it if it names no value twice, goes
on from no value, and defines no table in two ways.  A header of another table in an array ends
what stood below the one before.

`Stands` ties this to what the reader has built: every value that is found has a reason among
the lines, and every value that was given is found.  A line that fits keeps it: `Stands.step`.
-/
import LiveDoc.Proofs.Toml.Entries

namespace LiveDoc
namespace Toml

/-! ## Lines -/

inductive Line where
  | entry (key : List String) (v : Value)
  | header (path : List String)
  /-- The header of another table in an array. -/
  | element (path : List String)

def Line.effect : Line → State → Option State
  | .entry key v, st =>
    (change (enter v key false) st.path st.entries).map fun entries => ⟨entries, st.path⟩
  | .header path, st =>
    (change (openTable (path.getLastD "")) path.dropLast st.entries).map (⟨·, path⟩)
  | .element path, st =>
    (change (appendTable (path.getLastD "")) path.dropLast st.entries).map (⟨·, path⟩)

def effects : List Line → State → Option State
  | [], st => some st
  | line :: lines, st => (line.effect st).bind (effects lines)

/-! ## What stands in a document -/

/-- Neither key goes on from the other. -/
def Apart (p q : List String) : Prop := ¬ p <+: q ∧ ¬ q <+: p

instance (p q : List String) : Decidable (Apart p q) :=
  inferInstanceAs (Decidable (¬ p <+: q ∧ ¬ q <+: p))

theorem Apart.symm {p q : List String} (h : Apart p q) : Apart q p := ⟨h.2, h.1⟩

structure Assignment where
  table : List String
  key : List String
  value : Value

namespace Assignment

def path (a : Assignment) : List String := a.table ++ a.key

/-- The path up to the first part of the key. -/
def root (a : Assignment) : List String := a.table ++ a.key.take 1

end Assignment

structure Standing where
  /-- The current table. -/
  path : List String
  values : List Assignment
  headers : List (List String)
  elements : List (List String)

namespace Standing

def empty : Standing := ⟨[], [], [], []⟩

def tables (S : Standing) : List (List String) := S.headers ++ S.elements

/-- No value is in the way of a header.  It may name a table below one that came about by a
dotted key, but not that table itself. -/
def Clear (S : Standing) (path : List String) : Prop :=
  ∀ a ∈ S.values, a.root <+: path → Apart path a.path

instance (S : Standing) (path : List String) : Decidable (S.Clear path) :=
  inferInstanceAs (Decidable (∀ a ∈ S.values, a.root <+: path → Apart path a.path))

end Standing

namespace Line

def Fits (S : Standing) : Line → Prop
  | .entry key _ => key ≠ [] ∧ (∀ a ∈ S.values, Apart (S.path ++ key) a.path) ∧
      ∀ q ∈ S.tables, ¬ S.path ++ key.take 1 <+: q
  | .header path => path ≠ [] ∧ path ∉ S.tables ∧ S.Clear path
  | .element path => path ≠ [] ∧ (path ∈ S.elements ∨ ∀ q ∈ S.tables, ¬ path <+: q) ∧ S.Clear path

instance (S : Standing) : (line : Line) → Decidable (line.Fits S)
  | .entry key _ => inferInstanceAs (Decidable (key ≠ [] ∧
      (∀ a ∈ S.values, Apart (S.path ++ key) a.path) ∧
        ∀ q ∈ S.tables, ¬ S.path ++ key.take 1 <+: q))
  | .header path => inferInstanceAs (Decidable (path ≠ [] ∧ path ∉ S.tables ∧ S.Clear path))
  | .element path => inferInstanceAs (Decidable (path ≠ [] ∧
      (path ∈ S.elements ∨ ∀ q ∈ S.tables, ¬ path <+: q) ∧ S.Clear path))

def add (S : Standing) : Line → Standing
  | .entry key v => { S with values := ⟨S.path, key, v⟩ :: S.values }
  | .header path => { S with path := path, headers := path :: S.headers }
  | .element path =>
    { path := path
      values := S.values.filter fun a => ¬ path <+: a.table
      headers := S.headers.filter fun q => ¬ path <+: q
      elements := path :: S.elements.filter fun q => ¬ path <+: q }

end Line

/-- Each line can follow what stands before it. -/
def Fit : Standing → List Line → Prop
  | _, [] => True
  | S, line :: lines => line.Fits S ∧ Fit (line.add S) lines

instance Fit.decidable : (S : Standing) → (lines : List Line) → Decidable (Fit S lines)
  | _, [] => instDecidableTrue
  | S, line :: lines =>
    have := Fit.decidable (line.add S) lines
    inferInstanceAs (Decidable (line.Fits S ∧ Fit (line.add S) lines))

def standing (S : Standing) (lines : List Line) : Standing := lines.foldl Line.add S

theorem fit_append {S : Standing} {lines more : List Line} (h : Fit S lines)
    (hmore : Fit (standing S lines) more) : Fit S (lines ++ more) := by
  induction lines generalizing S with
  | nil => exact hmore
  | cons line lines ih => exact ⟨h.1, ih h.2 hmore⟩

theorem standing_append (S : Standing) (lines more : List Line) :
    standing S (lines ++ more) = standing (standing S lines) more :=
  List.foldl_append

/-! ## Paths -/

theorem Assignment.root_prefix_path (a : Assignment) : a.root <+: a.path :=
  (List.prefix_append_right_inj a.table).mpr (List.take_prefix 1 a.key)

/-- Between the table and the whole path there is the first part of the key. -/
theorem Assignment.root_prefix_of_between (a : Assignment) {r : List String} (htable : a.table <+: r)
    (hne : r ≠ a.table) (hr : r <+: a.path) : a.root <+: r := by
  obtain ⟨more, rfl⟩ := htable
  rw [Assignment.path, List.prefix_append_right_inj] at hr
  rw [Assignment.root, List.prefix_append_right_inj]
  obtain ⟨rest, hrest⟩ := hr
  cases more with
  | nil => exact absurd (List.append_nil a.table) hne
  | cons part more =>
    rw [← hrest]
    exact List.cons_prefix_cons.mpr ⟨rfl, List.nil_prefix⟩

theorem Standing.Clear.not_value {S : Standing} {path : List String} (h : S.Clear path)
    {a : Assignment} (ha : a ∈ S.values) : ¬ a.path <+: path :=
  fun hpath => (h a ha (a.root_prefix_path.trans hpath)).2 hpath

theorem Standing.Clear.not_dotted {S : Standing} {path : List String} (h : S.Clear path)
    {a : Assignment} (ha : a ∈ S.values) (htable : a.table <+: path) (hne : path ≠ a.table) :
    ¬ path <+: a.path :=
  fun hpath => (h a ha (a.root_prefix_of_between htable hne hpath)).1 hpath

/-! ## Reasons -/

/-- Why a value of a kind is found at the end of a path. -/
inductive Reason (S : Standing) (r : List String) : Kind → Prop
  /-- It is given, or part of what is given. -/
  | value {a : Assignment} (ha : a ∈ S.values) (hr : a.path <+: r) (kind : Kind) : Reason S r kind
  | header (h : r ∈ S.headers) : Reason S r (.table .header)
  | element (h : r ∈ S.elements) : Reason S r .array
  | dotted {a : Assignment} (ha : a ∈ S.values) (htable : a.table <+: r) (hne : r ≠ a.table)
      (hr : r <+: a.path) : Reason S r (.table .dotted)
  | implied {q : List String} (hq : q ∈ S.tables) (hr : r <+: q) (hne : r ≠ q) :
      Reason S r (.table .implied)

variable {S S' : Standing} {r path : List String} {kind : Kind}

theorem Reason.mono (h : Reason S r kind) (hvalues : ∀ a ∈ S.values, a ∈ S'.values)
    (hheaders : ∀ q ∈ S.headers, q ∈ S'.headers)
    (helements : ∀ q ∈ S.elements, q ∈ S'.elements) : Reason S' r kind := by
  cases h with
  | value ha hr => exact Reason.value (hvalues _ ha) hr kind
  | header h => exact Reason.header (hheaders _ h)
  | element h => exact Reason.element (helements _ h)
  | dotted ha htable hne hr => exact Reason.dotted (hvalues _ ha) htable hne hr
  | @implied q hq hr hne =>
    refine Reason.implied (q := q) ?_ hr hne
    rcases List.mem_append.mp hq with hq | hq
    · exact List.mem_append_left _ (hheaders q hq)
    · exact List.mem_append_right _ (helements q hq)

theorem mem_filter_not_below {α : Type} {f : α → List String} {l : List α} {x : α} :
    x ∈ l.filter (fun y => ¬ path <+: f y) ↔ x ∈ l ∧ ¬ path <+: f x := by
  rw [List.mem_filter, decide_eq_true_iff]

/-- Another table in an array takes the reasons away of what is below it only. -/
theorem Reason.add_element (h : Reason S r kind) (hr : ¬ path <+: r) :
    Reason ((Line.element path).add S) r kind := by
  have hself : path ∈ ((Line.element path).add S).elements := List.mem_cons_self
  cases h with
  | @value a ha hpath =>
    refine Reason.value (a := a) (mem_filter_not_below.mpr ⟨ha, fun htable => hr ?_⟩) hpath kind
    exact htable.trans ((List.prefix_append a.table a.key).trans hpath)
  | header h => exact Reason.header (mem_filter_not_below.mpr ⟨h, hr⟩)
  | element h =>
    exact Reason.element (List.mem_cons_of_mem _ (mem_filter_not_below.mpr ⟨h, hr⟩))
  | @dotted a ha htable hne hpath =>
    refine Reason.dotted (a := a) (mem_filter_not_below.mpr ⟨ha, fun h => hr ?_⟩) htable hne hpath
    exact h.trans htable
  | @implied q hq hrq hne =>
    by_cases hpath : path <+: q
    · -- The table below which this one was is gone, but the new one is below it too.
      have hbefore : r <+: path := (List.prefix_or_prefix_of_prefix hpath hrq).resolve_left hr
      exact Reason.implied (List.mem_append_right _ hself) hbefore fun heq =>
        hr (heq ▸ List.prefix_refl r)
    · refine Reason.implied (q := q) ?_ hrq hne
      rcases List.mem_append.mp hq with hq | hq
      · exact List.mem_append_left _ (mem_filter_not_below.mpr ⟨hq, hpath⟩)
      · exact List.mem_append_right _
          (List.mem_cons_of_mem _ (mem_filter_not_below.mpr ⟨hq, hpath⟩))

/-- Where a header can stand there is no value, and on the way to it neither. -/
theorem Reason.ne_value (h : Reason S r kind) (hclear : S.Clear path) (hr : r <+: path) :
    kind ≠ .value := by
  cases h with
  | value ha hpath => exact absurd (hpath.trans hr) (hclear.not_value ha)
  | _ => nofun

/-! ## What is found -/

def State.root (st : State) : Value := .table .header st.entries

/-- The reader has built what stands. -/
structure Stands (S : Standing) (st : State) : Prop where
  path : st.path = S.path
  current : ∃ v, find? S.path st.root = some v ∧ v.kind ≠ .value
  keys : ∀ a ∈ S.values, a.key ≠ []
  reason : ∀ r v, r ≠ [] → find? r st.root = some v → Reason S r v.kind
  elements : ∀ q ∈ S.elements, ∃ v, find? q st.root = some v ∧ v.kind = .array
  values : ∀ a ∈ S.values, find? a.path st.root = some a.value

theorem stands_empty : Stands .empty ⟨[], []⟩ where
  path := rfl
  current := ⟨_, rfl, nofun⟩
  keys := nofun
  reason r v hr h := by
    obtain ⟨key, r, rfl⟩ := List.exists_cons_of_ne_nil hr
    cases h
  elements := nofun
  values := nofun

variable {st : State}

/-- What a header or a value passes through is no value. -/
theorem Value.kind_ne_of_find? {u v w : Value} {more : List String}
    (hu : find? r u = some v) (hw : find? (r ++ more) u = some w) (hkind : w.kind ≠ .value) :
    v.kind ≠ .value := by
  rw [find?_append, hu, Option.bind_some] at hw
  by_cases hmore : more = []
  · subst hmore
    obtain rfl := Option.some.inj hw
    exact hkind
  · intro hv
    rw [find?_of_entries?_none (Value.entries?_of_kind hv) hmore] at hw
    cases hw

theorem Stands.exists_entry {key : List String} {v : Value} (h : Stands S st)
    (hfits : (Line.entry key v).Fits S) :
    ∃ st', (Line.entry key v).effect st = some st' ∧ st'.path = S.path ∧
      Placed .dotted (S.path ++ key) v (some st.root) st'.root := by
  obtain ⟨hkey, hvalues, htables⟩ := hfits
  obtain ⟨u, hu, hkind⟩ := h.current
  have hpath : (some st.root).bind (find? S.path) = some u := hu
  -- No table with a header of its own is at a part of the key or below it.
  have htable : ∀ r, r ≠ [] → r <+: key → ∀ q ∈ S.tables, ¬ S.path ++ r <+: q := by
    rintro r hr ⟨more, rfl⟩ q hq hprefix
    obtain ⟨part, r, rfl⟩ := List.exists_cons_of_ne_nil hr
    refine htables q hq (List.IsPrefix.trans ?_ hprefix)
    exact (List.prefix_append_right_inj S.path).mpr
      (List.cons_prefix_cons.mpr ⟨rfl, List.nil_prefix⟩)
  have hreason : ∀ r, r ≠ [] → r <+: key → ∀ w, find? (S.path ++ r) st.root = some w →
      w.kind = .table .dotted ∧ r ≠ key := by
    intro r hne hr w hw
    have hprefix : S.path ++ r <+: S.path ++ key := (List.prefix_append_right_inj S.path).mpr hr
    have happend : S.path ++ r ≠ [] := fun heq => hne (List.append_eq_nil_iff.mp heq).2
    have hw' := h.reason _ w happend hw
    generalize hk : w.kind = k at hw'
    cases hw' with
    | value ha ha' => exact absurd (ha'.trans hprefix) (hvalues _ ha).2
    | header hq =>
      exact absurd (List.prefix_refl _) (htable r hne hr _ (List.mem_append_left _ hq))
    | element hq =>
      exact absurd (List.prefix_refl _) (htable r hne hr _ (List.mem_append_right _ hq))
    | implied hq hrq => exact absurd hrq (htable r hne hr _ hq)
    | dotted ha _ _ ha' => exact ⟨rfl, fun heq => (hvalues _ ha).1 (heq ▸ ha')⟩
  have hnone : find? (S.path ++ key) st.root = none :=
    Option.eq_none_iff_forall_ne_some.mpr fun w hw =>
      (hreason key hkey (List.prefix_refl key) w hw).2 rfl
  have hbelow : ∀ r, (some u).bind (find? r) = find? (S.path ++ r) st.root := fun r => by
    rw [find?_append, hu]
  obtain ⟨entries, hchange, hplaced⟩ : ∃ entries, change (enter v key false) S.path st.entries =
      some entries ∧ Placed .dotted (S.path ++ key) v (some st.root) (.table .header entries) := by
    refine exists_change ?_ ?_ ?_ ?_
    · rfl
    · rintro r ⟨more, hmore⟩ w hw
      exact Value.kind_ne_of_find? hw (hmore ▸ hu) hkind
    · intro hmissing
      rw [hpath] at hmissing
      cases hmissing
    · intro inner hinner
      rw [hpath] at hinner ⊢
      refine exists_enter hkey hinner (fun r hr hne _ w hw => ?_) ?_ v false
      · rw [hbelow] at hw
        exact (hreason r hne hr w hw).1
      · rw [hbelow, hnone]
  exact ⟨⟨entries, S.path⟩, by rw [Line.effect, h.path, hchange]; rfl, rfl, hplaced⟩

/-- The path of a header up to its last part can be passed. -/
theorem Stands.ne_value (h : Stands S st) (hclear : S.Clear path) (hr : r <+: path) {v : Value}
    (hv : find? r st.root = some v) : v.kind ≠ .value := by
  by_cases hne : r = []
  · subst hne
    obtain rfl := Option.some.inj hv
    nofun
  · exact (h.reason r v hne hv).ne_value hclear hr

/-- The line of a header places a value at its path, if what is there is of the kind that its
last part can be added to. -/
theorem Stands.exists_placed (h : Stands S st) (hne : path ≠ []) (hclear : S.Clear path)
    {f : String → Entries → Option Entries} {new : Option Value → Value} {kind : Kind}
    (hf : ∀ {old inner key}, (Option.getD old (.table .implied [])).entries? = some inner →
      (∀ v ∈ old.bind (find? [key]), v.kind = kind) →
      ∃ inner', f key inner = some inner' ∧ Placed .implied [key] (new (old.bind (find? [key]))) old
        ((old.getD (.table .implied [])).withEntries inner'))
    (hat : ∀ v, find? path st.root = some v → v.kind = kind) :
    ∃ entries, change (f (path.getLastD "")) path.dropLast st.entries = some entries ∧
      Placed .implied path (new (find? path st.root)) (some st.root) (.table .header entries) := by
  obtain ⟨before, key, rfl⟩ : ∃ before key, path = before ++ [key] :=
    ⟨_, _, (List.dropLast_concat_getLast hne).symm⟩
  rw [List.dropLast_concat, List.getLastD_concat]
  refine exists_change ?_ ?_ (fun _ => rfl) ?_
  · rfl
  · intro r hr v hv
    exact h.ne_value hclear (hr.trans (List.prefix_append before [key])) hv
  · intro inner hinner
    rw [find?_append]
    refine hf hinner fun v hv => hat v ?_
    rw [find?_append]
    exact hv

theorem Stands.exists_header (h : Stands S st) (hfits : (Line.header path).Fits S) :
    ∃ st', (Line.header path).effect st = some st' ∧ st'.path = path ∧
      Placed .implied path (opened (find? path st.root)) (some st.root) st'.root := by
  obtain ⟨hne, htables, hclear⟩ := hfits
  have hat : ∀ v, find? path st.root = some v → v.kind = .table .implied := by
    intro v hv
    have hreason := h.reason _ v hne hv
    generalize hk : v.kind = k at hreason
    cases hreason with
    | value ha hpath => exact absurd hpath (hclear.not_value ha)
    | header hq => exact absurd (List.mem_append_left _ hq) htables
    | element hq => exact absurd (List.mem_append_right _ hq) htables
    | dotted ha htable hne' hpath => exact absurd hpath (hclear.not_dotted ha htable hne')
    | implied => rfl
  obtain ⟨entries, hchange, hplaced⟩ := h.exists_placed hne hclear exists_openTable hat
  exact ⟨⟨entries, path⟩, by rw [Line.effect, hchange]; rfl, rfl, hplaced⟩

theorem Stands.exists_element (h : Stands S st) (hfits : (Line.element path).Fits S) :
    ∃ st', (Line.element path).effect st = some st' ∧ st'.path = path ∧
      Placed .implied path (appended (find? path st.root)) (some st.root) st'.root := by
  obtain ⟨hne, hbefore, hclear⟩ := hfits
  have hat : ∀ v, find? path st.root = some v → v.kind = .array := by
    intro v hv
    rcases hbefore with hmem | hnot
    · obtain ⟨w, hw, hkind⟩ := h.elements _ hmem
      rw [hv, Option.some.injEq] at hw
      rw [hw, hkind]
    · have hself : path ∉ S.tables := fun hmem => hnot _ hmem (List.prefix_refl _)
      have hreason := h.reason _ v hne hv
      generalize hk : v.kind = k at hreason
      cases hreason with
      | value ha hpath => exact absurd hpath (hclear.not_value ha)
      | header hq => exact absurd (List.mem_append_left _ hq) hself
      | element => rfl
      | dotted ha htable hne' hpath => exact absurd hpath (hclear.not_dotted ha htable hne')
      | implied hq hr => exact absurd hr (hnot _ hq)
  obtain ⟨entries, hchange, hplaced⟩ := h.exists_placed hne hclear exists_appendTable hat
  exact ⟨⟨entries, path⟩, by rw [Line.effect, hchange]; rfl, rfl, hplaced⟩

/-! ## Steps -/

theorem Stands.entry {key : List String} {v : Value} (h : Stands S st)
    (hfits : (Line.entry key v).Fits S) :
    ∃ st', (Line.entry key v).effect st = some st' ∧ Stands ((Line.entry key v).add S) st' := by
  obtain ⟨st', heffect, hpath, hplaced⟩ := h.exists_entry hfits
  obtain ⟨hkey, hvalues, htables⟩ := hfits
  obtain ⟨u, hu, hkind⟩ := h.current
  have hbefore : ¬ S.path ++ key <+: S.path := fun hprefix => hkey (by
    have hlength := hprefix.length_le
    rw [List.length_append] at hlength
    exact List.length_eq_zero_iff.mp (by omega))
  have hbelow : ∀ q ∈ S.tables, ¬ S.path ++ key <+: q := fun q hq hprefix =>
    htables q hq (((List.prefix_append_right_inj S.path).mpr (List.take_prefix 1 key)).trans
      hprefix)
  refine ⟨st', heffect, hpath, ?_, ?_, ?_, ?_, ?_⟩
  · obtain ⟨w, hw, hkind'⟩ := hplaced.exists_kind hbefore hu
    exact ⟨w, hw, hkind' ▸ hkind⟩
  · exact List.forall_mem_cons.mpr ⟨hkey, h.keys⟩
  · intro r w hne hw
    rcases hplaced.cases hw with ⟨more, rfl, -⟩ | ⟨-, w', hw', hkind'⟩ | ⟨hnone, hr, -, hkind'⟩
    · exact Reason.value (a := ⟨S.path, key, v⟩) List.mem_cons_self (List.prefix_append _ more) _
    · rw [← hkind']
      exact (h.reason r w' hne hw').mono (fun a => List.mem_cons_of_mem _) (fun _ => id)
        fun _ => id
    · -- Tables come about behind the current one, which is there.
      have hbehind : ¬ r <+: S.path := by
        rintro ⟨more, hmore⟩
        have hfound : find? (r ++ more) st.root = some u := hmore ▸ hu
        rw [find?_append] at hfound
        rw [show find? r st.root = none from hnone] at hfound
        cases hfound
      have htable : S.path <+: r :=
        (List.prefix_or_prefix_of_prefix (List.prefix_append S.path key) hr).resolve_right hbehind
      rw [hkind']
      exact Reason.dotted (a := ⟨S.path, key, v⟩) List.mem_cons_self htable
        (fun heq => hbehind (heq ▸ List.prefix_refl r)) hr
  · intro q hq
    obtain ⟨w, hw, hw'⟩ := h.elements q hq
    obtain ⟨u, hu, hu'⟩ := hplaced.exists_kind (hbelow q (List.mem_append_right _ hq)) hw
    exact ⟨u, hu, hu'.trans hw'⟩
  · refine List.forall_mem_cons.mpr ⟨hplaced.at_path, fun a ha => ?_⟩
    obtain ⟨hpq, hqp⟩ := hvalues a ha
    rw [hplaced.beside a.path hqp hpq]
    exact h.values a ha

theorem Stands.header (h : Stands S st) (hfits : (Line.header path).Fits S) :
    ∃ st', (Line.header path).effect st = some st' ∧ Stands ((Line.header path).add S) st' := by
  obtain ⟨st', heffect, hpath, hplaced⟩ := h.exists_header hfits
  obtain ⟨hne, htables, hclear⟩ := hfits
  have hbelow : ∀ more, more ≠ [] → find? (path ++ more) st'.root = find? (path ++ more) st.root := by
    intro more hmore
    rw [find?_append, hplaced.at_path, find?_append]
    exact find?_opened _ hmore
  refine ⟨st', heffect, hpath, ⟨_, hplaced.at_path, nofun⟩, h.keys, ?_, ?_, ?_⟩
  · intro r w hr hw
    rcases hplaced.cases hw with ⟨more, rfl, hmore⟩ | ⟨-, w', hw', hkind⟩ | ⟨-, hprefix, hr', hkind⟩
    · by_cases hself : more = []
      · subst hself
        obtain rfl := Option.some.inj hmore
        rw [List.append_nil]
        exact Reason.header List.mem_cons_self
      · rw [hbelow more hself] at hw
        exact (h.reason _ w hr hw).mono (fun _ => id) (fun q => List.mem_cons_of_mem _) fun _ => id
    · rw [← hkind]
      exact (h.reason r w' hr hw').mono (fun _ => id) (fun q => List.mem_cons_of_mem _) fun _ => id
    · rw [hkind]
      exact Reason.implied (q := path) (List.mem_append_left _ List.mem_cons_self) hprefix hr'
  · intro q hq
    obtain ⟨w, hw, hkind⟩ := h.elements q hq
    by_cases hprefix : path <+: q
    · obtain ⟨more, rfl⟩ := hprefix
      have hmore : more ≠ [] := by
        rintro rfl
        rw [List.append_nil] at hq
        exact htables (List.mem_append_right _ hq)
      exact ⟨w, by rw [hbelow more hmore, hw], hkind⟩
    · obtain ⟨u, hu, hu'⟩ := hplaced.exists_kind hprefix hw
      exact ⟨u, hu, hu'.trans hkind⟩
  · intro a ha
    have hvalue := hclear.not_value ha
    by_cases hprefix : path <+: a.path
    · obtain ⟨more, hmore⟩ := hprefix
      have hself : more ≠ [] := by
        rintro rfl
        rw [List.append_nil] at hmore
        exact hvalue (hmore ▸ List.prefix_refl _)
      rw [← hmore, hbelow more hself, hmore]
      exact h.values a ha
    · rw [hplaced.beside a.path hvalue hprefix]
      exact h.values a ha

theorem Stands.element (h : Stands S st) (hfits : (Line.element path).Fits S) :
    ∃ st', (Line.element path).effect st = some st' ∧ Stands ((Line.element path).add S) st' := by
  obtain ⟨st', heffect, hpath, hplaced⟩ := h.exists_element hfits
  obtain ⟨hne, -, hclear⟩ := hfits
  have hself : find? path st'.root = some (appended (find? path st.root)) := hplaced.at_path
  refine ⟨st', heffect, hpath, ⟨_, hself, ?_⟩, ?_, ?_, ?_, ?_⟩
  · rw [kind_appended]
    nofun
  · exact fun a ha => h.keys a (mem_filter_not_below.mp ha).1
  · intro r w hr hw
    rcases hplaced.cases hw with ⟨more, rfl, hmore⟩ | ⟨hbefore, w', hw', hkind⟩ |
        ⟨-, hprefix, hr', hkind⟩
    · by_cases hlast : more = []
      · subst hlast
        obtain rfl := Option.some.inj hmore
        rw [List.append_nil, kind_appended]
        exact Reason.element List.mem_cons_self
      · rw [find?_appended _ hlast] at hmore
        cases hmore
    · rw [← hkind]
      exact (h.reason r w' hr hw').add_element hbefore
    · rw [hkind]
      exact Reason.implied (q := path) (List.mem_append_right _ List.mem_cons_self) hprefix hr'
  · refine List.forall_mem_cons.mpr ⟨⟨_, hself, kind_appended _⟩, fun q hq => ?_⟩
    obtain ⟨hq, hbefore⟩ := mem_filter_not_below.mp hq
    obtain ⟨w, hw, hkind⟩ := h.elements q hq
    obtain ⟨u, hu, hu'⟩ := hplaced.exists_kind hbefore hw
    exact ⟨u, hu, hu'.trans hkind⟩
  · intro a ha
    obtain ⟨ha, htable⟩ := mem_filter_not_below.mp ha
    have hbefore : ¬ path <+: a.path := by
      intro hprefix
      have hbehind : a.table <+: path := (List.prefix_or_prefix_of_prefix hprefix
        (List.prefix_append a.table a.key)).resolve_left htable
      exact hclear.not_dotted ha hbehind (fun heq => htable (heq ▸ List.prefix_refl _)) hprefix
    rw [hplaced.beside a.path (hclear.not_value ha) hbefore]
    exact h.values a ha

/-- A line that fits can be read, and what it adds then stands. -/
theorem Stands.step {line : Line} (h : Stands S st) (hfits : line.Fits S) :
    ∃ st', line.effect st = some st' ∧ Stands (line.add S) st' := by
  cases line with
  | entry key v => exact h.entry hfits
  | header path => exact h.header hfits
  | element path => exact h.element hfits

/-- Lines of which each fits what stands before it can all be read. -/
theorem Stands.run {lines : List Line} (h : Stands S st) (hfit : Fit S lines) :
    ∃ st', effects lines st = some st' ∧ Stands (standing S lines) st' := by
  induction lines generalizing S st with
  | nil => exact ⟨st, rfl, h⟩
  | cons line lines ih =>
    obtain ⟨st₁, heffect, h₁⟩ := h.step hfit.1
    obtain ⟨st', hrun, h'⟩ := ih h₁ hfit.2
    exact ⟨st', by rw [effects, heffect]; exact hrun, h'⟩

/-! ## Settings -/

def Standing.Names (S : Standing) (r : List String) : Prop :=
  (∃ a ∈ S.values, r <+: a.path) ∨ ∃ q ∈ S.tables, r <+: q

/-- Of these settings of a table those that have a value are given, and of the others nothing
is. -/
def Standing.Gives (S : Standing) (table : List String)
    (settings : List (String × Option Value)) : Prop :=
  ∀ s ∈ settings, (∀ v ∈ s.2, ∃ a ∈ S.values, a.path = table ++ [s.1] ∧ a.value = v) ∧
    (s.2 = none → ¬ S.Names (table ++ [s.1]))

theorem Reason.names (h : Reason S r kind) (hvalue : ∀ a ∈ S.values, ¬ a.path <+: r) :
    S.Names r := by
  cases h with
  | value ha hr => exact absurd hr (hvalue _ ha)
  | header h => exact Or.inr ⟨r, List.mem_append_left _ h, List.prefix_refl r⟩
  | element h => exact Or.inr ⟨r, List.mem_append_right _ h, List.prefix_refl r⟩
  | dotted ha htable hne hr => exact Or.inl ⟨_, ha, hr⟩
  | implied hq hr hne => exact Or.inr ⟨_, hq, hr⟩

theorem Reason.exists_origin (h : Reason S r kind) (hvalue : ∀ a ∈ S.values, ¬ a.path <+: r)
    (helement : r ∉ S.elements) : ∃ origin, kind = .table origin := by
  cases h with
  | value ha hr => exact absurd hr (hvalue _ ha)
  | header => exact ⟨.header, rfl⟩
  | element h => exact absurd h helement
  | dotted => exact ⟨.dotted, rfl⟩
  | implied => exact ⟨.implied, rfl⟩

/-- What is found at a path that is neither given nor an array of tables is an open table. -/
theorem Stands.exists_table {table : List String} {v : Value} (h : Stands S st) (hne : table ≠ [])
    (htable : ∀ a ∈ S.values, ¬ a.path <+: table) (helement : table ∉ S.elements)
    (hv : find? table st.root = some v) :
    ∃ origin inner, v = .table origin inner ∧ v.entries? = some inner := by
  obtain ⟨origin, hkind⟩ := (h.reason table v hne hv).exists_origin htable helement
  obtain ⟨inner, rfl⟩ := Value.eq_table_of_kind hkind
  exact ⟨origin, inner, rfl, Value.entries?_of_table hkind⟩

/-- The settings of a table that is no value itself are found as they are given. -/
theorem Stands.find?_of_gives {table : List String} {settings : List (String × Option Value)}
    (h : Stands S st) (htable : ∀ a ∈ S.values, ¬ a.path <+: table)
    (hgives : S.Gives table settings) :
    ∀ s ∈ settings, find? (table ++ [s.1]) st.root = s.2 := by
  intro s hs
  obtain ⟨hgiven, hother⟩ := hgives s hs
  cases hv : s.2 with
  | some v =>
    obtain ⟨a, ha, hpath, hvalue⟩ := hgiven v hv
    rw [← hpath, h.values a ha, hvalue]
  | none =>
    refine Option.eq_none_iff_forall_ne_some.mpr fun v hfound => ?_
    have hreason := h.reason _ v (List.concat_ne_nil s.1 table) hfound
    refine hother hv (hreason.names fun a ha hprefix => ?_)
    rcases List.prefix_concat_iff.mp hprefix with heq | hprefix
    · exact hother hv (Or.inl ⟨a, ha, heq ▸ List.prefix_refl _⟩)
    · exact htable a ha hprefix

/-- What is found under a key of the document itself. -/
theorem lookup_eq_find? (st : State) (key : String) :
    st.entries.lookup key = find? [key] st.root :=
  (bind_find?_nil _).symm

theorem Stands.lookup_of_gives {settings : List (String × Option Value)} (h : Stands S st)
    (hgives : S.Gives [] settings) : ∀ s ∈ settings, st.entries.lookup s.1 = s.2 := by
  intro s hs
  rw [lookup_eq_find?]
  refine h.find?_of_gives (fun a ha hprefix => h.keys a ha ?_) hgives s hs
  exact (List.append_eq_nil_iff.mp (List.prefix_nil.mp hprefix)).2

/-! ## Tables written as values -/

abbrev Pairs := List (List String × Value)

def entryLines (ps : Pairs) : List Line := ps.map fun p => .entry p.1 p.2

/-- The keys can stand in one table. -/
structure Distinct (ps : Pairs) : Prop where
  ne_nil : ∀ p ∈ ps, p.1 ≠ []
  apart : ps.Pairwise fun p q => Apart p.1 q.1

def enterAll : Pairs → Entries → Option Entries
  | [], entries => some entries
  | p :: ps, entries => (enter p.2 p.1 false entries).bind (enterAll ps)

def entered (ps : Pairs) : Entries := (enterAll ps []).getD []

theorem effects_entryLines (ps : Pairs) (entries : Entries) :
    effects (entryLines ps) ⟨entries, []⟩ =
      (enterAll ps entries).map fun entries => ⟨entries, []⟩ := by
  induction ps generalizing entries with
  | nil => rfl
  | cons p ps ih =>
    show ((enter p.2 p.1 false entries).map _).bind (effects (entryLines ps)) = _
    rw [enterAll]
    cases enter p.2 p.1 false entries with
    | none => rfl
    | some first => exact ih first

theorem standing_entryLines (S : Standing) (ps : Pairs) : standing S (entryLines ps) =
      { S with values := (ps.map fun p => ⟨S.path, p.1, p.2⟩).reverse ++ S.values } := by
  induction ps generalizing S with
  | nil => rfl
  | cons p ps ih =>
    show standing ((Line.entry p.1 p.2).add S) (entryLines ps) = _
    rw [ih, List.map_cons, List.reverse_cons, List.append_assoc]
    rfl

theorem Apart.append_left {p q : List String} (h : Apart p q) (path : List String) :
    Apart (path ++ p) (path ++ q) :=
  ⟨fun hprefix => h.1 ((List.prefix_append_right_inj path).mp hprefix),
    fun hprefix => h.2 ((List.prefix_append_right_inj path).mp hprefix)⟩

theorem fit_entryLines {ps : Pairs} (h : Distinct ps)
    (hvalues : ∀ p ∈ ps, ∀ a ∈ S.values, Apart (S.path ++ p.1) a.path)
    (htables : ∀ p ∈ ps, ∀ q ∈ S.tables, ¬ S.path ++ p.1.take 1 <+: q) : Fit S (entryLines ps) := by
  induction ps generalizing S with
  | nil => trivial
  | cons p ps ih =>
    obtain ⟨hfirst, hrest⟩ := List.pairwise_cons.mp h.apart
    have hne : ∀ q ∈ ps, q.1 ≠ [] := fun q hq => h.ne_nil q (List.mem_cons_of_mem p hq)
    refine ⟨⟨h.ne_nil p List.mem_cons_self, hvalues p List.mem_cons_self,
      htables p List.mem_cons_self⟩, ih ⟨hne, hrest⟩ ?_ ?_⟩
    · intro q hq a ha
      rcases List.mem_cons.mp ha with rfl | ha
      · exact (hfirst q hq).symm.append_left S.path
      · exact hvalues q (List.mem_cons_of_mem p hq) a ha
    · exact fun q hq => htables q (List.mem_cons_of_mem p hq)

/-- What is given in a table that is written as a value is what it has. -/
theorem Distinct.stands {ps : Pairs} (h : Distinct ps) :
    enterAll ps [] = some (entered ps) ∧
      Stands (standing .empty (entryLines ps)) ⟨entered ps, []⟩ := by
  have hfit : Fit .empty (entryLines ps) := fit_entryLines h (fun _ _ => nofun) fun _ _ => nofun
  obtain ⟨st, hrun, hstands⟩ := stands_empty.run hfit
  rw [effects_entryLines, Option.map_eq_some_iff] at hrun
  obtain ⟨entries, hall, rfl⟩ := hrun
  have hentered : entered ps = entries := by
    rw [entered, hall]
    rfl
  exact ⟨by rw [hall, hentered], by rw [hentered]; exact hstands⟩

end Toml
end LiveDoc
