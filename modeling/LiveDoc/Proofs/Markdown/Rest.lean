/-
What the readers of blocks leave of a document.

A reader only ever goes forward.  A cursor moves inside its line: it passes spaces, tabs and
the marks of containers, and no line end.  The reader of a block leaves an end of the text that
it was given.  So if the document ends with a line end, then so does all that a reader sees of
it before it comes to the end.
-/
import LiveDoc.Proofs.Markdown.Lines

namespace LiveDoc
namespace Markdown

/-! ## Texts that end with a line end -/

/-- The text is empty or ends with LF. -/
def Complete (s : List Char) : Prop := s = [] ∨ s.getLast? = some '\n'

instance : DecidablePred Complete := fun s =>
  inferInstanceAs (Decidable (s = [] ∨ s.getLast? = some '\n'))

theorem complete_nil : Complete [] := Or.inl rfl

theorem complete_iff {s : List Char} : Complete s ↔ ∀ c ∈ s.getLast?, c = '\n' := by
  rw [Complete, ← List.getLast?_eq_none_iff]
  cases s.getLast? <;> simp

theorem Complete.append {a b : List Char} (ha : Complete a) (hb : Complete b) :
    Complete (a ++ b) := by
  rw [complete_iff] at ha hb ⊢
  rw [List.getLast?_append]
  cases hlast : b.getLast? with
  | none => exact ha
  | some c => simpa [hlast] using hb

theorem Complete.of_suffix {s t : List Char} (h : Complete s) (ht : t <:+ s) : Complete t := by
  obtain ⟨front, rfl⟩ := ht
  rw [complete_iff] at h ⊢
  intro c hc
  refine h c ?_
  rw [List.getLast?_append, hc]
  rfl

/-- A text in which no LF stands ends with none. -/
theorem not_complete_of_not_mem {s : List Char} (hne : s ≠ []) (h : '\n' ∉ s) : ¬ Complete s := by
  rintro (hnil | hlast)
  · exact hne hnil
  · exact h (List.mem_of_getLast? hlast)

/-! ## Cursors -/

namespace Place

theorem skip_suffix (n : Nat) (p : Place) : (p.skip n).rest <:+ p.rest := by
  rw [rest_skip]
  exact List.drop_suffix n p.rest

end Place

namespace Cursor

/-- The second cursor is behind the first on the same line, or where it is.  Only a tab that
is passed can leave further columns. -/
def Behind (c c' : Cursor) : Prop :=
  ∃ skipped, c.place.rest = skipped ++ c'.place.rest ∧ '\n' ∉ skipped ∧
    (skipped = [] → c'.spaces ≤ c.spaces)

variable {c c' c'' : Cursor}

theorem Behind.refl (c : Cursor) : c.Behind c :=
  ⟨[], rfl, List.not_mem_nil, fun _ => Nat.le_refl _⟩

theorem Behind.trans (h : c.Behind c') (h' : c'.Behind c'') : c.Behind c'' := by
  obtain ⟨skipped, hrest, hnot, hspaces⟩ := h
  obtain ⟨more, hrest', hnot', hspaces'⟩ := h'
  refine ⟨skipped ++ more, ?_, ?_, ?_⟩
  · rw [hrest, hrest', List.append_assoc]
  · rw [List.mem_append, not_or]
    exact ⟨hnot, hnot'⟩
  · intro hnil
    obtain ⟨hskipped, hmore⟩ := List.append_eq_nil_iff.mp hnil
    exact Nat.le_trans (hspaces' hmore) (hspaces hskipped)

theorem Behind.suffix (h : c.Behind c') : c'.place.rest <:+ c.place.rest := by
  obtain ⟨skipped, hrest, -⟩ := h
  exact ⟨skipped, hrest.symm⟩

/-- On a line that has a line end, the cursor does not come to the end of the document. -/
theorem Behind.mem (h : c.Behind c') (hmem : '\n' ∈ c.place.rest) : '\n' ∈ c'.place.rest := by
  obtain ⟨skipped, hrest, hnot, -⟩ := h
  rw [hrest, List.mem_append] at hmem
  exact hmem.resolve_left hnot

/-- Nothing is behind the end of the document. -/
theorem Behind.nil (h : c.Behind c') (hrest : c.place.rest = []) :
    c'.place.rest = [] ∧ c'.spaces ≤ c.spaces := by
  obtain ⟨skipped, hskipped, -, hspaces⟩ := h
  rw [hrest, eq_comm, List.append_eq_nil_iff] at hskipped
  exact ⟨hskipped.2, hspaces hskipped.1⟩

/-- White space is skipped and nothing else. -/
theorem skipFrom_spec (wanted offset pos : Nat) (before : Option Char) (s : List Char) :
    ∃ skipped, s = skipped ++ (skipFrom wanted offset pos before s).2.place.rest ∧
      (∀ d ∈ skipped, isIndent d = true) ∧
      (skipped = [] → (skipFrom wanted offset pos before s).2.spaces = 0) := by
  induction s generalizing wanted offset pos before with
  | nil => exact ⟨[], rfl, by simp, fun _ => rfl⟩
  | cons d rest ih =>
    have hone : ∀ {wanted' offset' pos' before'}, isIndent d = true → ∃ skipped,
        d :: rest = skipped ++ (skipFrom wanted' offset' pos' before' rest).2.place.rest ∧
          (∀ e ∈ skipped, isIndent e = true) ∧
          (skipped = [] → (skipFrom wanted' offset' pos' before' rest).2.spaces = 0) := by
      intro wanted' offset' pos' before' hd
      obtain ⟨skipped, hrest, hspace, -⟩ := ih wanted' offset' pos' before'
      exact ⟨d :: skipped, congrArg (d :: ·) hrest, List.forall_mem_cons.mpr ⟨hd, hspace⟩,
        fun hnil => absurd hnil (List.cons_ne_nil _ _)⟩
    rw [skipFrom]
    split
    · exact ⟨[], rfl, by simp, fun _ => rfl⟩
    · split
      · next hspace => exact hone (by rw [hspace]; rfl)
      · split
        · next htab =>
          have hd : isIndent d = true := by
            rw [htab]
            rfl
          dsimp only
          split
          · exact ⟨[d], rfl, by simpa using hd, fun hnil => absurd hnil (List.cons_ne_nil _ _)⟩
          · exact hone hd
        · exact ⟨[], rfl, by simp, fun _ => rfl⟩

theorem skipColumns_spec (wanted : Nat) (c : Cursor) :
    ∃ skipped, c.place.rest = skipped ++ (c.skipColumns wanted).2.place.rest ∧
      (∀ d ∈ skipped, isIndent d = true) ∧
      (skipped = [] → (c.skipColumns wanted).2.spaces ≤ c.spaces) := by
  rw [skipColumns]
  split
  · exact ⟨[], rfl, by simp, fun _ => Nat.sub_le _ _⟩
  · obtain ⟨skipped, hrest, hspace, hspaces⟩ := skipFrom_spec (wanted - c.spaces) c.offset
      c.place.pos c.place.before c.place.rest
    refine ⟨skipped, hrest, hspace, ?_⟩
    intro hnil
    rw [hspaces hnil]
    exact Nat.zero_le _

theorem behind_skipColumns (wanted : Nat) (c : Cursor) : c.Behind (c.skipColumns wanted).2 := by
  obtain ⟨skipped, hrest, hspace, hspaces⟩ := c.skipColumns_spec wanted
  exact ⟨skipped, hrest, fun hmem => Bool.false_ne_true (hspace '\n' hmem), hspaces⟩

theorem behind_skipUpTo (most : Nat) (c : Cursor) : c.Behind (c.skipUpTo most).2 :=
  c.behind_skipColumns most

theorem behind_skipChar? {d : Char} (hd : d ≠ '\n') (h : c.skipChar? d = some c') :
    c.Behind c' := by
  rw [skipChar?] at h
  split at h
  · next e rest hrest =>
    split at h
    · next he =>
      obtain rfl := Option.some.inj h
      refine ⟨[e], ?_, ?_, ?_⟩
      · rw [Place.rest_skip, hrest]
        rfl
      · rw [List.mem_singleton, he]
        exact hd.symm
      · exact fun hnil => absurd hnil (List.cons_ne_nil _ _)
    · cases h
  · cases h

theorem behind_skipQuoteMark? (h : c.skipQuoteMark? = some c') : c.Behind c' := by
  rw [skipQuoteMark?, Option.map_eq_some_iff] at h
  obtain ⟨c₁, hmark, rfl⟩ := h
  exact ((c.behind_skipUpTo 3).trans (behind_skipChar? (by decide) hmark)).trans
    (c₁.behind_skipUpTo 1)

end Cursor

theorem Container.behind_continue? {container : Container} {c c' : Cursor}
    (h : container.continue? c = some c') : c.Behind c' := by
  have hindented : ∀ {indent}, Container.continue?.indented indent c = some c' → c.Behind c' := by
    intro indent hindent
    rw [Container.continue?.indented] at hindent
    dsimp only at hindent
    split at hindent
    · obtain rfl := Option.some.inj hindent
      exact c.behind_skipColumns indent
    · cases hindent
  cases container with
  | quote => exact Cursor.behind_skipQuoteMark? h
  | list mark =>
    obtain rfl := Option.some.inj h
    exact .refl c
  | item indent => exact hindented h
  | footnote => exact hindented h

theorem behind_continued (containers : List Container) (c : Cursor) :
    c.Behind (continued containers c).2 := by
  induction containers generalizing c with
  | nil => exact .refl c
  | cons container inner ih =>
    rw [continued]
    split
    · next c' hcontinue => exact (Container.behind_continue? hcontinue).trans (ih c')
    · exact .refl c

/-! ## The rest of a line -/

section
variable {s : List Char} {c : Cursor}

theorem getLast?_take_lineLength (h : '\n' ∈ s) :
    (s.take (lineLength s)).getLast? = some '\n' := by
  obtain ⟨line, rest, rfl, hline⟩ := List.eq_append_cons_of_mem h
  have htake : (line ++ '\n' :: rest).take (lineLength (line ++ '\n' :: rest)) = line ++ ['\n'] :=
    take_lineLength hline .lf rest
  rw [htake, List.getLast?_concat]

theorem drop_lineLength_of_not_mem (h : '\n' ∉ s) : s.drop (lineLength s) = [] := by
  induction s with
  | nil => rfl
  | cons d rest ih =>
    rw [List.mem_cons, not_or] at h
    rw [lineLength, List.drop_succ_cons, ih h.2]
    exact fun hd => h.1 hd.symm

theorem getLast?_withoutCr {line : List Char} (h : line.getLast? = some '\n') :
    (withoutCr line).getLast? = some '\n' := by
  rw [withoutCr]
  split
  · next last rest hreverse =>
    have hlast : last = '\n' := by
      rw [← List.head?_reverse, hreverse] at h
      exact Option.some.inj h
    split
    · rw [List.getLast?_reverse, hlast]
      rfl
    · exact h
  · exact h

/-- The text of a line that has a line end has one too. -/
theorem Cursor.getLast?_lineText (h : '\n' ∈ c.place.rest) :
    c.lineText.toList.getLast? = some '\n' := by
  have hline := getLast?_withoutCr (getLast?_take_lineLength h)
  rw [lineText, String.toList_ofList, List.getLast?_append, hline]
  rfl

theorem Cursor.nextLine_suffix (c : Cursor) : c.nextLine.rest <:+ c.place.rest :=
  c.place.skip_suffix _

theorem Cursor.nextLine_of_not_mem (h : '\n' ∉ c.place.rest) : c.nextLine.rest = [] := by
  rw [nextLine, Place.rest_skip, drop_lineLength_of_not_mem h]

end

/-! ## Leaf blocks other than code -/

section
variable (containers : List Container)

theorem Cursor.skipBlanks_suffix (c : Cursor) : c.skipBlanks.place.rest <:+ c.place.rest :=
  c.place.skip_suffix _

theorem behind_lineStart (p : Place) (wanted : Nat) : (Cursor.lineStart p).Behind
    ((continued containers (.lineStart p)).2.skipColumns wanted).2 :=
  (behind_continued containers _).trans (Cursor.behind_skipColumns wanted _)

theorem htmlLines_suffix (mark : Option (List Char)) (fuel : Nat) (c : Cursor) :
    (htmlLines containers mark fuel c).2.rest <:+ c.place.rest := by
  induction fuel generalizing c with
  | zero => exact List.suffix_rfl
  | succ fuel ih =>
    have hnext := c.nextLine_suffix
    have hgoesOn := (behind_continued containers (.lineStart c.nextLine)).suffix
    rw [htmlLines]
    dsimp only
    repeat' split
    all_goals first
      | exact hnext
      | exact (ih _).trans (hgoesOn.trans hnext)

theorem numberedHeading_suffix (level : Nat) (p : Place) :
    (numberedHeading containers level p).2.rest <:+ p.rest :=
  (Place.skip_suffix _ _).trans ((Place.skip_suffix _ _).trans (p.skip_suffix level))

theorem rowCells_suffix (fuel : Nat) (p : Place) : (rowCells fuel p).2.rest <:+ p.rest := by
  induction fuel generalizing p with
  | zero => exact List.suffix_rfl
  | succ fuel ih =>
    have hbar : ∀ b : Bool, (if b then p.skip 1 else p).rest <:+ p.rest := by
      intro b
      split
      · exact p.skip_suffix 1
      · exact List.suffix_rfl
    have hspace := fun n => (Place.skip_suffix n _).trans (hbar (p.rest.head? == some '|'))
    rw [rowCells]
    dsimp only
    split
    · exact (Place.skip_suffix _ _).trans (hspace _)
    · exact (ih _).trans ((Place.skip_suffix _ _).trans (hspace _))

theorem tableRow_suffix (columns : Nat) (p : Place) :
    (tableRow containers columns p).2.rest <:+ p.rest :=
  rowCells_suffix (p.rest.length + 1) p

theorem tableRows_suffix (columns fuel : Nat) (p : Place) :
    (tableRows containers columns fuel p).2.rest <:+ p.rest := by
  induction fuel generalizing p with
  | zero => exact List.suffix_rfl
  | succ fuel ih =>
    have hgoesOn := (behind_continued containers (.lineStart p)).suffix
    rw [tableRows]
    dsimp only
    split
    · exact List.suffix_rfl
    · exact (ih _).trans ((tableRow_suffix containers columns _).trans
        ((Cursor.skipBlanks_suffix _).trans hgoesOn))

theorem table?_suffix {p p' : Place} {b : Block} (h : table? containers p = some (b, p')) :
    p'.rest <:+ p.rest := by
  rw [table?] at h
  dsimp only at h
  split at h
  · cases h
  · obtain ⟨n, -, hrows⟩ := Option.map_eq_some_iff.mp h
    obtain ⟨-, rfl⟩ := Prod.mk.inj hrows
    exact (tableRows_suffix containers _ _ _).trans
      ((Place.skip_suffix _ _).trans (p.skip_suffix _))

theorem paragraphLines_suffix (fuel : Nat) (p : Place) :
    (paragraphLines containers fuel p).2.2.rest <:+ p.rest := by
  induction fuel generalizing p with
  | zero => exact List.suffix_rfl
  | succ fuel ih =>
    rw [paragraphLines]
    dsimp only
    have hnext := p.skip_suffix ((lineText p.rest).length +
      (lineEnd? (p.rest.drop (lineText p.rest).length)).getD 0)
    have hgoesOn := (behind_lineStart containers (p.skip ((lineText p.rest).length +
      (lineEnd? (p.rest.drop (lineText p.rest).length)).getD 0)) 4).suffix.trans hnext
    split
    · exact (Place.skip_suffix _ _).trans hgoesOn
    · split
      · exact hnext
      · exact (ih _).trans ((Cursor.skipBlanks_suffix _).trans hgoesOn)

theorem paragraph_suffix (p : Place) : (paragraph containers p).2.rest <:+ p.rest := by
  rw [paragraph]
  split
  · next found hfound => exact table?_suffix containers hfound
  · exact paragraphLines_suffix containers _ p

end

/-! ## Definitions and the marks of containers -/

theorem definitionsAndParagraph_suffix (fuel : Nat) (r : Reading) (p : Place) :
    (definitionsAndParagraph fuel r p).2.rest <:+ p.rest := by
  induction fuel generalizing r p with
  | zero => exact List.suffix_rfl
  | succ fuel ih =>
    rw [definitionsAndParagraph]
    split
    · exact paragraph_suffix r.containers p
    · next n label _ =>
      have hbehind := p.skip_suffix n
      dsimp only
      split
      · exact hbehind
      · next k _ =>
        have hnext := ((p.skip n).skip_suffix k).trans hbehind
        split
        · exact hnext
        · next m _ =>
          split
          · exact hnext
          · exact (ih _ _).trans ((Place.skip_suffix _ _).trans ((Place.skip_suffix m _).trans hnext))

theorem itemStart?_suffix {outer indent : Nat} {c c' : Cursor} {mark : Char}
    (h : itemStart? outer c = some (mark, indent, c')) : c'.place.rest <:+ c.place.rest := by
  rw [itemStart?, Option.bind_eq_bind, Option.bind_eq_some_iff] at h
  obtain ⟨m, -, h⟩ := h
  have hmark := c.place.skip_suffix m.length
  have hspace := (Cursor.behind_skipColumns 1
    { c with place := c.place.skip m.length, offset := c.offset + m.length }).suffix.trans hmark
  split at h
  · cases h
  · dsimp only at h
    split at h
    · cases h
    · split at h
      · cases h
        exact hspace
      · split at h
        · cases h
          exact (Cursor.behind_skipUpTo 4 _).suffix.trans hspace
        · cases h
          exact hspace

theorem taskBox?_suffix {c c' : Cursor} (h : taskBox? c = some c') :
    c'.place.rest <:+ c.place.rest := by
  rw [taskBox?] at h
  split at h
  · split at h
    · obtain rfl := Option.some.inj h
      exact (Place.skip_suffix 3 _).trans (c.behind_skipUpTo 3).suffix
    · cases h
  · cases h

end Markdown
end LiveDoc
