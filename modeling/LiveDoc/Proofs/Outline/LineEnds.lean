/-
The line ends of code blocks.

A code block is made of the lines between its marks, each with the LF that ends it.  Only the
last line of a document can be without one, and then nothing follows.  So a code block whose
text does not end with a line end is the last one, and the document has no line end either.
-/
import LiveDoc.Proofs.Markdown.Rest
import LiveDoc.Proofs.Outline.Codes

namespace LiveDoc
namespace Markdown

/-- The texts are what a reader takes of `s`, of which it leaves `s'`.  They end with line ends,
unless `s` has none at its end and nothing is left of it. -/
structure Cut (s : List Char) (texts : List String) (s' : List Char) : Prop where
  suffix : s' <:+ s
  complete : Complete s ∨ s' ≠ [] → ∀ text ∈ texts, Complete text.toList

namespace Cut

variable {s s' s'' : List Char} {texts : List String}

theorem nothing (h : s' <:+ s) : Cut s [] s' := ⟨h, by simp⟩

theorem append {a b : List String} (ha : Cut s a s') (hb : Cut s' b s'') : Cut s (a ++ b) s'' where
  suffix := hb.suffix.trans ha.suffix
  complete := by
    intro hend text hmem
    have hleft : s'' ≠ [] → s' ≠ [] := by
      intro hne hnil
      have hsuffix := hb.suffix
      rw [hnil, List.suffix_nil] at hsuffix
      exact hne hsuffix
    rcases List.mem_append.mp hmem with hmem | hmem
    · exact ha.complete (hend.imp_right hleft) text hmem
    · exact hb.complete (hend.imp_left fun hs => hs.of_suffix ha.suffix) text hmem

theorem of_suffix (hs : s' <:+ s) (h : Cut s' texts s'') : Cut s texts s'' := (nothing hs).append h

theorem mono {fewer : List String} (h : Cut s texts s') (hsub : fewer ⊆ texts) : Cut s fewer s' :=
  ⟨h.suffix, fun hend text hmem => h.complete hend text (hsub hmem)⟩

theorem join (h : Cut s texts s') : Cut s [String.join texts] s' where
  suffix := h.suffix
  complete := by
    intro hend text hmem
    have hlines := h.complete hend
    rw [List.mem_singleton.mp hmem]
    clear hmem h
    induction texts with
    | nil => exact complete_nil
    | cons line rest ih =>
      rw [List.forall_mem_cons] at hlines
      rw [String.join_cons, String.toList_append]
      exact hlines.1.append (ih hlines.2)

end Cut

/-! ## Code blocks -/

section
variable {c c' : Cursor}

/-- Where a line has no LF, it is the last one of the document, and where there is no line, its
text is empty. -/
theorem Cursor.Behind.cut_lineText (h : c.Behind c') (hc : c.place.rest ≠ [] ∨ c.spaces = 0) :
    Cut c.place.rest [c'.lineText] c'.nextLine.rest where
  suffix := c'.nextLine_suffix.trans h.suffix
  complete := by
    intro hend text hmem
    rw [List.mem_singleton.mp hmem]
    by_cases hlf : '\n' ∈ c.place.rest
    · exact Or.inr (Cursor.getLast?_lineText (h.mem hlf))
    · by_cases hnil : c.place.rest = []
      · obtain ⟨hrest, hspaces⟩ := h.nil hnil
        have hzero : c'.spaces = 0 := by
          have := hc.resolve_left (not_not_intro hnil)
          omega
        left
        rw [Cursor.lineText, hrest, hzero]
        rfl
      · have hlf' : '\n' ∉ c'.place.rest := fun hmem' => hlf (h.suffix.mem hmem')
        rcases hend with hend | hend
        · exact absurd hend (not_complete_of_not_mem hnil hlf)
        · exact absurd (Cursor.nextLine_of_not_mem hlf') hend

variable (containers : List Container)

theorem cut_fencedLines (fence : Fence) (indent fuel : Nat) (p : Place) :
    Cut p.rest (fencedLines containers fence indent fuel p).1
      (fencedLines containers fence indent fuel p).2.rest := by
  induction fuel generalizing p with
  | zero => exact .nothing List.suffix_rfl
  | succ fuel ih =>
    have hline := behind_lineStart containers p indent
    have hcloser := (hline.trans (Cursor.behind_skipColumns (4 - indent) _)).suffix
    rw [fencedLines]
    dsimp only
    split
    · exact .nothing List.suffix_rfl
    · split
      · exact .nothing ((Place.skip_suffix _ _).trans ((Place.skip_suffix _ _).trans hcloser))
      · exact (hline.cut_lineText (Or.inr rfl)).append (ih _)

theorem cut_fencedCode (fence : Fence) (indent : Nat) (p : Place) :
    Cut p.rest (fencedCode containers fence indent p).1.codes
      (fencedCode containers fence indent p).2.rest := by
  have hfirst : ((p.skip fence.length).skip (lineLength (p.skip fence.length).rest)).rest <:+ p.rest :=
    (Place.skip_suffix _ _).trans (p.skip_suffix _)
  exact (Cut.of_suffix hfirst
    (cut_fencedLines containers fence indent (p.rest.length + 1) _)).join

theorem cut_indentedLines (fuel : Nat) (blank : Bool) (hc : c.place.rest ≠ []) :
    Cut c.place.rest ((indentedLines containers fuel blank c).1.map (·.1))
      (indentedLines containers fuel blank c).2.rest := by
  induction fuel generalizing blank c with
  | zero => exact .nothing List.suffix_rfl
  | succ fuel ih =>
    have hline := (Cursor.Behind.refl c).cut_lineText (Or.inl hc)
    have hnext := behind_lineStart containers c.nextLine 4
    rw [indentedLines]
    dsimp only
    split
    · exact hline
    · next hgoesOn =>
      have hne : ((continued containers (.lineStart c.nextLine)).2.skipColumns 4).2.place.rest
          ≠ [] := by
        intro hnil
        simp [hnil] at hgoesOn
      exact hline.append (.of_suffix hnext.suffix (ih _ hne))

/-- The blank lines at the end of an indented code block are left out. -/
theorem cut_indentedCode (hc : c.place.rest ≠ []) :
    Cut c.place.rest (indentedCode containers c).1.codes (indentedCode containers c).2.2.rest := by
  have hlines := cut_indentedLines containers (c.place.rest.length + 1) false hc
  refine (hlines.mono (List.map_subset _ ?_)).join
  intro line hmem
  rw [List.mem_reverse] at hmem
  exact List.mem_reverse.mp ((List.dropWhile_suffix _).mem hmem)

end

/-! ## All blocks -/

theorem codes_paragraph (containers : List Container) (p : Place) :
    (paragraph containers p).1.codes = [] := by
  rw [paragraph]
  split
  · next found htable =>
    rw [table?] at htable
    dsimp only at htable
    split at htable
    · cases htable
    · obtain ⟨n, -, hfound⟩ := Option.map_eq_some_iff.mp htable
      rw [← hfound]
      rfl
  · dsimp only
    split <;> rfl

theorem codes_definitionsAndParagraph (fuel : Nat) (r : Reading) (p : Place) :
    (definitionsAndParagraph fuel r p).1.codes = r.codes := by
  induction fuel generalizing r p with
  | zero => rfl
  | succ fuel ih =>
    rw [definitionsAndParagraph]
    split
    · dsimp only
      rw [Reading.codes_add, codes_paragraph, List.append_nil]
    · dsimp only
      repeat' split
      all_goals first
        | exact Reading.codes_define _ _
        | exact (ih _ _).trans (Reading.codes_define _ _)

/-- Reading on from `s` to `s'` adds at most one code block, whose text is cut from there. -/
def ReadsOn (r : Reading) (s : List Char) (r' : Reading) (s' : List Char) : Prop :=
  ∃ text : Option String, r'.codes = r.codes ++ text.toList ∧ Cut s text.toList s'

section
variable {r r' : Reading} {s s' : List Char}

theorem ReadsOn.nothing (hcodes : r'.codes = r.codes) (h : s' <:+ s) : ReadsOn r s r' s' :=
  ⟨none, hcodes.trans (List.append_nil _).symm, .nothing h⟩

theorem ReadsOn.add {b : Block} (hb : b.codes = []) (h : s' <:+ s) : ReadsOn r s (r.add b) s' :=
  .nothing (by rw [Reading.codes_add, hb, List.append_nil]) h

theorem ReadsOn.code {info : Option String} {lines : List String}
    (h : Cut s (Block.code info lines).codes s') : ReadsOn r s (r.add (.code info lines)) s' :=
  ⟨some (String.join lines), r.codes_add _, h⟩

theorem ReadsOn.of_eq {r₀ : Reading} {s₀ : List Char} (hcodes : r.codes = r₀.codes)
    (hs : s <:+ s₀) (h : ReadsOn r s r' s') : ReadsOn r₀ s₀ r' s' := by
  obtain ⟨text, htext, hcut⟩ := h
  exact ⟨text, hcodes ▸ htext, .of_suffix hs hcut⟩

end

/-- A line that is not blank is not used up when white space is skipped. -/
theorem rest_skipUpTo_ne_nil {c : Cursor} (h : blankLine? c.place.rest = none) (most : Nat) :
    (c.skipUpTo most).2.place.rest ≠ [] := by
  intro hnil
  obtain ⟨skipped, hrest, hspace, -⟩ := c.skipColumns_spec most
  have hskipped : c.place.rest = skipped := by
    rw [hrest]
    exact (congrArg (skipped ++ ·) hnil).trans (List.append_nil _)
  have hall : ∀ d ∈ skipped, isInlineSpace d = true := by
    intro d hd
    have hindent := hspace d hd
    rw [isIndent, Bool.or_eq_true, beq_iff_eq, beq_iff_eq] at hindent
    rcases hindent with rfl | rfl <;> decide
  rw [hskipped, blankLine?, countWhile, List.takeWhile_eq_self_iff.mpr hall, List.drop_length] at h
  cases h

theorem readsOn_leafBlock (r : Reading) {c : Cursor} (hc : blankLine? c.place.rest = none) :
    ReadsOn r c.place.rest (leafBlock r c).1 (leafBlock r c).2.rest := by
  have hindent := (c.behind_skipUpTo 4).suffix
  refine .of_eq r.codes_endList hindent ?_
  rw [leafBlock]
  dsimp only
  split
  · exact .code (cut_indentedCode _ (rest_skipUpTo_ne_nil hc 4))
  · split
    · exact .add rfl (htmlLines_suffix _ _ _ _)
    · split
      · exact .add rfl (Place.skip_suffix _ _)
      · split
        · exact .add rfl (numberedHeading_suffix r.endList.containers _ _)
        · split
          · exact .code (cut_fencedCode _ _ _ _)
          · exact .nothing (codes_definitionsAndParagraph _ _ _)
              (definitionsAndParagraph_suffix _ _ _)

def LineStart.Opens (r : Reading) (s : List Char) : LineStart → Prop
  | .usedUp r' p => r'.codes = r.codes ∧ p.rest <:+ s
  | .goesOn r' c => r'.codes = r.codes ∧ c.place.rest <:+ s

theorem LineStart.Opens.of_eq {r r' : Reading} {s s' : List Char} {line : LineStart}
    (hcodes : r'.codes = r.codes) (hs : s' <:+ s) (h : line.Opens r' s') : line.Opens r s := by
  cases line with
  | usedUp r'' p => exact ⟨h.1.trans hcodes, h.2.trans hs⟩
  | goesOn r'' c => exact ⟨h.1.trans hcodes, h.2.trans hs⟩

theorem opens_openContainers (fuel : Nat) (r : Reading) (c : Cursor) :
    (openContainers fuel r c).Opens r c.place.rest := by
  induction fuel generalizing r c with
  | zero => exact ⟨rfl, List.suffix_rfl⟩
  | succ fuel ih =>
    have hindent := (c.behind_skipUpTo 4).suffix
    rw [openContainers]
    dsimp only
    split
    · exact ⟨rfl, List.suffix_rfl⟩
    · split
      · next n label _ =>
        have hbehind := (Place.skip_suffix n _).trans hindent
        exact (ih _ _).of_eq (r.codes_enterFootnote label) ((Place.skip_suffix _ _).trans hbehind)
      · split
        · next mark indent c' hitem =>
          have hitems := r.codes_enterItem mark indent
          have hmark := (itemStart?_suffix hitem).trans hindent
          split
          · exact ⟨hitems, (Place.skip_suffix _ _).trans hmark⟩
          · split
            · next c'' hbox =>
              have htask : ((r.enterItem mark indent).add .task).codes = r.codes := by
                rw [Reading.codes_add, hitems]
                exact List.append_nil _
              have hbehind := (taskBox?_suffix hbox).trans hmark
              split
              · exact ⟨htask, (Place.skip_suffix _ _).trans hbehind⟩
              · exact (ih _ _).of_eq htask hbehind
            · exact (ih _ _).of_eq hitems hmark
        · split
          · next c' hquote =>
            have hentered := ((r.endList).codes_enter .quote).trans r.codes_endList
            exact (ih _ _).of_eq hentered ((Cursor.behind_skipQuoteMark? hquote).suffix.trans hindent)
          · exact ⟨rfl, List.suffix_rfl⟩

theorem readsOn_nextBlock (r : Reading) (p : Place) :
    ReadsOn r p.rest (nextBlock r p).1 (nextBlock r p).2.rest := by
  have hcontinued := (behind_continued r.containers (.lineStart p)).suffix
  have hleft := r.codes_leaveMany (r.levels.length - (continued r.containers (.lineStart p)).1)
  have hopens := (opens_openContainers (p.rest.length + 1) _
    (continued r.containers (.lineStart p)).2).of_eq hleft hcontinued
  rw [nextBlock]
  dsimp only
  split
  · next r' next hused =>
    rw [hused] at hopens
    exact .nothing hopens.1 hopens.2
  · next r' c hgoesOn =>
    rw [hgoesOn] at hopens
    refine .of_eq hopens.1 hopens.2 ?_
    split
    · exact .nothing r'.codes_blankLine (Place.skip_suffix _ _)
    · next hblank => exact readsOn_leafBlock r' hblank

/-- A block that is read to the end of the document is the last one, so no text that lacks a
line end has another one behind it. -/
theorem codes_blocksFrom (fuel : Nat) (r : Reading) (p : Place) :
    ∃ texts, (blocksFrom fuel r p).codes = r.codes ++ texts ∧
      (∀ text ∈ texts.dropLast, Complete text.toList) ∧
      (Complete p.rest → ∀ text ∈ texts, Complete text.toList) := by
  induction fuel generalizing r p with
  | zero => exact ⟨[], (List.append_nil _).symm, by simp, by simp⟩
  | succ fuel ih =>
    rw [blocksFrom]
    dsimp only
    split
    · exact ⟨[], (List.append_nil _).symm, by simp, by simp⟩
    · obtain ⟨text, htext, hcut⟩ := readsOn_nextBlock r p
      by_cases hrest : (nextBlock r p).2.rest = []
      · have hstops : blocksFrom fuel (nextBlock r p).1 (nextBlock r p).2 = (nextBlock r p).1 := by
          cases fuel with
          | zero => rfl
          | succ fuel => rw [blocksFrom, hrest]; rfl
        refine ⟨text.toList, (congrArg Reading.codes hstops).trans htext, ?_,
          fun hp => hcut.complete (Or.inl hp)⟩
        cases text <;> simp
      · obtain ⟨texts, htexts, hinit, hall⟩ := ih (nextBlock r p).1 (nextBlock r p).2
        have hone := hcut.complete (Or.inr hrest)
        refine ⟨text.toList ++ texts, ?_, ?_, ?_⟩
        · rw [htexts, htext, List.append_assoc]
        · intro t ht
          rw [List.dropLast_append] at ht
          split at ht
          · exact hone t (List.dropLast_subset _ ht)
          · exact (List.mem_append.mp ht).elim (hone t) (hinit t)
        · intro hp t ht
          exact (List.mem_append.mp ht).elim (hone t) (hall (hp.of_suffix hcut.suffix) t)

/-- In any document, every code block but the last is empty or ends with LF, and so does the last
one if the document does. -/
theorem codes_complete (source : String) :
    (∀ text ∈ (Node.ofMarkdown source).codes.dropLast, Complete text.toList) ∧
      (Complete source.toList → ∀ text ∈ (Node.ofMarkdown source).codes, Complete text.toList) := by
  obtain ⟨texts, htexts, hinit, hall⟩ :=
    codes_blocksFrom (source.toList.length + 1) .start (.start source.toList)
  have hcodes : (Node.ofMarkdown source).codes = texts :=
    (codes_ofMarkdown source).trans htexts
  rw [hcodes]
  exact ⟨hinit, hall⟩

set_option maxRecDepth 8000 in
/-- Documents that end inside a code block and without a line end: one with a fence, and one with
an indented block in a list item. -/
theorem codes_not_complete :
    (Node.ofMarkdown "\x60\x60\x60lisp\n(a)").codes = ["(a)"] ∧
      (Node.ofMarkdown "- b\n\n      (a)").codes = ["(a)"] ∧ ¬ Complete "(a)".toList := by
  decide +kernel

end Markdown
end LiveDoc
