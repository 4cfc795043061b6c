/-
How documents are written, and that they are read back.

A document is a list of lines, each with a key and its value or with the header of a table, and
between them lines with nothing in them.  The reader does one after the other what each line
says: `parse?_of_spells`.  What comes of it does not depend on how a line is written.
-/
import LiveDoc.Proofs.Toml.Values

namespace LiveDoc
namespace Toml

variable {k d : Nat} {s t : List Char}

/-- The text is these lines, with values nested at most `d` deep and keys of at most `k` parts,
and lines with nothing in them. -/
inductive Spells (k d : Nat) : List Line → List Char → Prop
  | done : Spells k d [] []
  | blank {s t : List Char} (hs : s ≠ []) (h : RestOfLine s t) {lines : List Line}
      (ht : Spells k d lines t) : Spells k d lines s
  | entry {s s₁ s₂ s₃ s₄ t : List Char} {key : List String} {v : Value} (hs : Spaces s s₁)
      (hkey : Key k s₁ key ('=' :: s₂)) (hs' : Spaces s₂ s₃) (hv : Writes k d s₃ (.value v) s₄)
      (h : RestOfLine s₄ t) {lines : List Line} (ht : Spells k d lines t) :
      Spells k d (.entry key v :: lines) s
  | header {s s₁ s₂ s₃ t : List Char} {path : List String} (hs : Spaces s ('[' :: s₁))
      (hs' : Spaces s₁ s₂) (hkey : Key k s₂ path (']' :: s₃)) (h : RestOfLine s₃ t)
      {lines : List Line} (ht : Spells k d lines t) : Spells k d (.header path :: lines) s
  | element {s s₁ s₂ s₃ t : List Char} {path : List String} (hs : Spaces s ('[' :: '[' :: s₁))
      (hs' : Spaces s₁ s₂) (hkey : Key k s₂ path (']' :: ']' :: s₃)) (h : RestOfLine s₃ t)
      {lines : List Line} (ht : Spells k d lines t) : Spells k d (.element path :: lines) s

/-! ## One line -/

def behindLineKey (st : State) (key : List String) : List Char → Option (State × List Char)
  | '=' :: s => (value? ((skipSpace s).length + 1) maxDepth (skipSpace s)).bind fun (v, s) =>
      (restOfLine? s).bind fun rest =>
        (change (enter v key false) st.path st.entries).bind fun entries =>
          some (⟨entries, st.path⟩, rest)
  | _ => none

theorem line?_of_not_bracket {s : List Char} (h : (skipSpace s).head? ≠ some '[') (st : State) :
    line? st s =
      match restOfLine? (skipSpace s) with
      | some rest => some (st, rest)
      | none => (key? (skipSpace s)).bind fun x => behindLineKey st x.1 x.2 := by
  unfold line?
  split
  · next heq => exact absurd (by rw [heq]; rfl) h
  · next heq => exact absurd (by rw [heq]; rfl) h
  · rfl

theorem line?_of_blank (h : RestOfLine s t) (st : State) : line? st s = some (st, t) := by
  obtain ⟨hrest, -, hhead⟩ := h.skip
  have hne : (skipSpace s).head? ≠ some '[' := by
    intro hbracket
    rcases hhead '[' hbracket with h | h | h <;> exact absurd h (by decide)
  rw [line?_of_not_bracket hne, restOfLine?_of_restOfLine hrest]

theorem restOfLine?_of_key {key : List String} (h : KeyParts s key t) : restOfLine? s = none := by
  have hskip : skipSpace s = s := h.skipSpace (Spaces.refl s)
  obtain ⟨c, s, rfl, -⟩ := h.head
  obtain ⟨-, hlf, hcr, hmark⟩ := h.solid c rfl
  unfold restOfLine?
  rw [hskip]
  split
  · exact absurd (List.cons.inj ‹c :: s = '#' :: _›).1 hmark
  · exact lineEnd?_cons hlf hcr s

theorem line?_of_keyParts {s s₁ : List Char} {key : List String} (hs : Spaces s s₁)
    (hkey : KeyParts s₁ key t) (st : State) :
    line? st s = (key? s₁).bind fun x => behindLineKey st x.1 x.2 := by
  have hstart : skipSpace s = s₁ := hkey.skipSpace hs
  have hbracket : (skipSpace s).head? ≠ some '[' := by
    rw [hstart]
    exact hkey.head?_ne (by decide)
  rw [line?_of_not_bracket hbracket, hstart, restOfLine?_of_key hkey]

theorem line?_of_key {s s₁ s₂ s₃ : List Char} {key : List String} (hs : Spaces s s₁)
    (hkey : Key k s₁ key ('=' :: s₂)) (hk : k ≤ maxDepth) (hs' : Spaces s₂ s₃) (hsolid : Solid s₃)
    (st : State) :
    line? st s =
      (value? (s₃.length + 1) maxDepth s₃).bind fun y => (restOfLine? y.2).bind fun rest =>
        ((Line.entry key y.1).effect st).map fun st => (st, rest) := by
  have hread : key? s₁ = some (key, '=' :: s₂) :=
    key?_of_key hkey hk (Or.inl rfl) (Spaces.refl s₁)
  have hspaces : skipSpace s₂ = s₃ := skipSpace_of_spaces hs' fun c hc => (hsolid c hc).1
  rw [line?_of_keyParts hs hkey.parts, hread]
  show (value? ((skipSpace s₂).length + 1) maxDepth (skipSpace s₂)).bind _ = _
  rw [hspaces]
  congr 1
  funext y
  obtain ⟨v, s₄⟩ := y
  show (restOfLine? s₄).bind _ = (restOfLine? s₄).bind _
  congr 1
  funext rest
  rw [Line.effect, Option.map_map]
  cases change (enter v key false) st.path st.entries <;> rfl

theorem line?_of_entry {s s₁ s₂ s₃ s₄ t : List Char} {key : List String} {v : Value}
    (hs : Spaces s s₁) (hkey : Key k s₁ key ('=' :: s₂)) (hk : k ≤ maxDepth) (hs' : Spaces s₂ s₃)
    (hv : Writes k d s₃ (.value v) s₄) (hd : d ≤ maxDepth) (h : RestOfLine s₄ t) (st : State) :
    line? st s = ((Line.entry key v).effect st).map fun st => (st, t) := by
  have hvalue : value? (s₃.length + 1) maxDepth s₃ = some (v, s₄) :=
    reads_of_writes hv hk _ _ (by omega) hd (stops_of_restOfLine h)
  rw [line?_of_key hs hkey hk hs' hv.solid.1, hvalue]
  show (restOfLine? s₄).bind _ = _
  rw [restOfLine?_of_restOfLine h]
  rfl

theorem skipSpace_of_bracket (h : Spaces s ('[' :: t)) : skipSpace s = '[' :: t :=
  skipSpace_of_spaces h fun c hc => by
    rw [← Option.some.inj hc]
    rfl

theorem header?_of_key {s₁ s₂ s₃ t : List Char} {path : List String} (hs' : Spaces s₁ s₂)
    {closing : List Char} (hkey : Key k s₂ path (closing ++ s₃)) (hk : k ≤ maxDepth)
    (hclosing : (closing ++ s₃).head? = some ']') (h : RestOfLine s₃ t) :
    header? closing s₁ = some (path, t) := by
  have hprefix : closing.isPrefixOf (closing ++ s₃) = true :=
    List.isPrefixOf_iff_prefix.mpr (List.prefix_append closing s₃)
  rw [header?, key?_of_key hkey hk (Or.inr hclosing) hs']
  show (if closing.isPrefixOf (closing ++ s₃) = true then _ else none) = _
  rw [if_pos hprefix, List.drop_left, restOfLine?_of_restOfLine h]
  rfl

theorem line?_of_header {s s₁ s₂ s₃ t : List Char} {path : List String} (hs : Spaces s ('[' :: s₁))
    (hs' : Spaces s₁ s₂) (hkey : Key k s₂ path (']' :: s₃)) (hk : k ≤ maxDepth)
    (h : RestOfLine s₃ t) (st : State) :
    line? st s = ((Line.header path).effect st).map fun st => (st, t) := by
  have hne : ∀ rest, s₁ ≠ '[' :: rest := by
    rintro rest rfl
    have hskip : '[' :: rest = s₂ := hkey.parts.skipSpace hs'
    exact hkey.parts.head?_ne (d := '[') (by decide) (by rw [← hskip]; rfl)
  have hheader : header? [']'] s₁ = some (path, t) := header?_of_key hs' hkey hk rfl h
  unfold line?
  rw [skipSpace_of_bracket hs]
  split
  · next heq => exact absurd (List.cons.inj heq).2 (hne _)
  · next heq =>
    rw [← (List.cons.inj heq).2, hheader, Line.effect, Option.map_map]
    show (change _ _ _).bind _ = _
    cases change (openTable (path.getLastD "")) path.dropLast st.entries <;> rfl
  · next hbracket => exact absurd rfl (hbracket _)

theorem line?_of_element {s s₁ s₂ s₃ t : List Char} {path : List String}
    (hs : Spaces s ('[' :: '[' :: s₁)) (hs' : Spaces s₁ s₂) (hkey : Key k s₂ path (']' :: ']' :: s₃))
    (hk : k ≤ maxDepth) (h : RestOfLine s₃ t) (st : State) :
    line? st s = ((Line.element path).effect st).map fun st => (st, t) := by
  have hheader : header? [']', ']'] s₁ = some (path, t) := header?_of_key hs' hkey hk rfl h
  unfold line?
  rw [skipSpace_of_bracket hs]
  show (header? [']', ']'] s₁).bind _ = _
  rw [hheader, Line.effect, Option.map_map]
  show (change _ _ _).bind _ = _
  cases change (appendTable (path.getLastD "")) path.dropLast st.entries <;> rfl

/-! ## All lines -/

theorem linesOfDocument_of_line {st st' : State} (hs : s ≠ [])
    (h : line? st s = some (st', t)) (fuel : Nat) :
    linesOfDocument (fuel + 1) st s = linesOfDocument fuel st' t := by
  obtain ⟨c, s, rfl⟩ := List.exists_cons_of_ne_nil hs
  show (line? st (c :: s)).bind (fun x => linesOfDocument fuel x.1 x.2) = _
  rw [h]
  rfl

/-- The reader does what a line says and goes on behind it. -/
theorem linesOfDocument_cons {line : Line} {lines : List Line} {st st' : State} {fuel : Nat}
    (hread : line? st s = (line.effect st).map fun st => (st, t)) (hlength : t.length < s.length)
    (hrun : effects (line :: lines) st = some st') (hfuel : s.length < fuel)
    (ih : ∀ {st : State}, effects lines st = some st' → ∀ {fuel : Nat}, t.length < fuel →
      linesOfDocument fuel st t = some st') : linesOfDocument fuel st s = some st' := by
  obtain ⟨fuel, rfl, hle⟩ := exists_fuel hfuel
  obtain ⟨st₁, heffect, hrun⟩ := Option.bind_eq_some_iff.mp hrun
  have hne : s ≠ [] := by
    rintro rfl
    exact Nat.not_lt_zero _ hlength
  rw [heffect] at hread
  rw [linesOfDocument_of_line hne hread]
  exact ih hrun (by omega)

theorem linesOfDocument_of_spells {lines : List Line} {s : List Char}
    (h : Spells k d lines s) (hk : k ≤ maxDepth) (hd : d ≤ maxDepth) {st st' : State}
    (hrun : effects lines st = some st') {fuel : Nat} (hfuel : s.length < fuel) :
    linesOfDocument fuel st s = some st' := by
  induction h generalizing st fuel with
  | done =>
    obtain ⟨fuel, rfl, -⟩ := exists_fuel hfuel
    exact hrun
  | blank hs h ht ih =>
    obtain ⟨fuel, rfl, hle⟩ := exists_fuel hfuel
    rw [linesOfDocument_of_line hs (line?_of_blank h st)]
    exact ih hrun (Nat.lt_of_lt_of_le (h.length_lt hs) hle)
  | entry hs hkey hs' hv h ht ih =>
    have h₁ := hs.length_le
    have h₂ := hkey.parts.length_lt
    have h₃ := hs'.length_le
    have h₄ := hv.length_lt
    have h₅ := h.length_le
    rw [List.length_cons] at h₂
    exact linesOfDocument_cons (line?_of_entry hs hkey hk hs' hv hd h st) (by omega) hrun hfuel ih
  | header hs hs' hkey h ht ih =>
    have h₁ := hs.length_le
    have h₂ := hs'.length_le
    have h₃ := hkey.parts.length_lt
    have h₄ := h.length_le
    rw [List.length_cons] at h₁ h₃
    exact linesOfDocument_cons (line?_of_header hs hs' hkey hk h st) (by omega) hrun hfuel ih
  | element hs hs' hkey h ht ih =>
    have h₁ := hs.length_le
    have h₂ := hs'.length_le
    have h₃ := hkey.parts.length_lt
    have h₄ := h.length_le
    rw [List.length_cons, List.length_cons] at h₁ h₃
    exact linesOfDocument_cons (line?_of_element hs hs' hkey hk h st) (by omega) hrun hfuel ih

theorem Spells.not_marked {lines : List Line} {s : List Char} (h : Spells k d lines s) :
    s.head? ≠ some '\uFEFF' := by
  intro hmark
  have hskip : skipSpace s = s := skipSpace_of_not fun c hc => by
    rw [hmark] at hc
    rw [← Option.some.inj hc]
    rfl
  have hbracket : ∀ rest, ¬ Spaces s ('[' :: rest) := by
    intro rest hs
    rw [hskip.symm.trans (skipSpace_of_bracket hs)] at hmark
    exact absurd (Option.some.inj hmark) (by decide)
  cases h with
  | done => cases hmark
  | blank hs h =>
    rcases h.skip.2.2 '\uFEFF' (by rw [hskip, hmark]; rfl) with h | h | h <;>
      exact absurd h (by decide)
  | entry hs hkey =>
    rw [hskip.symm.trans (hkey.parts.skipSpace hs)] at hmark
    exact hkey.parts.head?_ne (by decide) hmark
  | header hs => exact hbracket _ hs
  | element hs => exact hbracket _ hs

theorem parse?_of_not_marked (h : s.head? ≠ some '\uFEFF') :
    parse? s = (linesOfDocument (s.length + 1) ⟨[], []⟩ s).map State.entries := by
  unfold parse?
  dsimp only
  split
  · exact absurd rfl h
  · rfl

/-- What is read of a document is what its lines say. -/
theorem parse?_of_spells {lines : List Line} {s : List Char} (h : Spells k d lines s)
    (hk : k ≤ maxDepth) (hd : d ≤ maxDepth) {st : State}
    (hrun : effects lines ⟨[], []⟩ = some st) : parse? s = some st.entries := by
  rw [parse?_of_not_marked h.not_marked,
    linesOfDocument_of_spells h hk hd hrun (Nat.lt_succ_self _)]
  rfl

/-! ## Documents that are refused -/

theorem parse?_of_line?_none {key : List String} (hkey : KeyParts s key t)
    (hline : line? ⟨[], []⟩ s = none) : parse? s = none := by
  rw [parse?_of_not_marked (hkey.head?_ne (by decide))]
  obtain ⟨c, s, rfl, -⟩ := hkey.head
  show ((line? ⟨[], []⟩ (c :: s)).bind _).map _ = none
  rw [hline]
  rfl

/-- A document that starts with a value nested deeper than `maxDepth` is refused. -/
theorem parse?_of_deeper {s s₁ t : List Char} {key : List String} (hkey : Key k s key ('=' :: s₁))
    (hk : k ≤ maxDepth) {n : Nat} (hn : maxDepth < n)
    (hs₁ : Spaces s₁ (List.replicate n '[' ++ t)) : parse? s = none := by
  obtain ⟨m, rfl⟩ := Nat.exists_eq_add_of_lt hn
  refine parse?_of_line?_none hkey.parts ?_
  rw [Nat.add_right_comm, ← List.replicate_append_replicate, List.append_assoc] at hs₁
  rw [line?_of_key (Spaces.refl s) hkey hk hs₁ fun c hc => by rw [← Option.some.inj hc]; decide,
    value?_of_deeper]
  rfl

/-- A document that starts with a key of more than `maxDepth` parts is refused. -/
theorem parse?_of_longer {key : List String} (hkey : KeyParts s key ('=' :: t))
    (hlength : maxDepth < key.length) : parse? s = none := by
  refine parse?_of_line?_none hkey ?_
  rw [line?_of_keyParts (Spaces.refl s) hkey, key?_of_keyParts hkey (Or.inl rfl) (Spaces.refl s),
    if_neg (Nat.not_le_of_lt hlength)]
  rfl

end Toml
end LiveDoc
