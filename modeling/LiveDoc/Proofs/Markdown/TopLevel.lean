/-
Reading outside of all containers.

A line that starts with none of the signs of a container is read as it stands: it is blank, or
a leaf block starts with it.  The lemmas here say where the reader is afterwards and what it has
read.  Of a place only what follows it matters, so they leave open what precedes it.
-/
import LiveDoc.Proofs.Markdown.Lines

namespace LiveDoc
namespace Markdown

variable {eol : LineEnd} {line s : List Char} {p : Place}

/-! ## No container opens -/

def opensContainer (c : Char) : Bool :=
  c == '[' || c == '-' || c == '+' || c == '*' || c == '>' || c.isDigit

theorem opensContainer_eq_false_iff {c : Char} : opensContainer c = false ↔
    c ≠ '[' ∧ c ≠ '-' ∧ c ≠ '+' ∧ c ≠ '*' ∧ c ≠ '>' ∧ c.isDigit = false := by
  simp [opensContainer, and_assoc]

theorem marker?_of_not {c : Char} (h : opensContainer c = false) (s : List Char) :
    marker? (c :: s) = none := by
  obtain ⟨-, hminus, hplus, hstar, -, hdigit⟩ := opensContainer_eq_false_iff.mp h
  have hnone : (c :: s).takeWhile Char.isDigit = [] :=
    List.takeWhile_cons_of_neg (by simp [hdigit])
  simp [marker?, hminus, hplus, hstar, hnone]

theorem openContainers_of_not {c : Char} (hp : p.rest = c :: s) (hindent : isIndent c = false)
    (h : opensContainer c = false) (fuel : Nat) (r : Reading) :
    openContainers (fuel + 1) r (.lineStart p) = .goesOn r (.lineStart p) := by
  have hflush : Flush p.rest := hp ▸ flush_cons hindent s
  have hitem : itemStart? 0 (.lineStart p) = none := by
    have hmarker : marker? p.rest = none := hp ▸ marker?_of_not h s
    simp [itemStart?, Cursor.lineStart, hmarker]
  obtain ⟨hbracket, -, -, -, hsign, -⟩ := opensContainer_eq_false_iff.mp h
  have hnote : footnoteStart? p.rest = none := by simp [hp, footnoteStart?, hbracket]
  have hquote : (Cursor.lineStart p).skipQuoteMark? = none := by
    simp [Cursor.skipQuoteMark?, skipUpTo_flush hflush, Cursor.skipChar?, hp, hsign]
  simp [openContainers, skipUpTo_flush hflush, hnote, hitem, hquote]

variable {r : Reading}

theorem containers_of_levels (hr : r.levels = []) : r.containers = [] := by
  rw [Reading.containers, hr]
  rfl

/-- Outside of all containers a line that opens none is read from its start. -/
theorem nextBlock_of_not {c : Char} (hp : p.rest = c :: s) (hindent : isIndent c = false)
    (h : opensContainer c = false) (hr : r.levels = []) :
    nextBlock r p =
      match blankLine? p.rest with
      | some k => (r.blankLine, p.skip k)
      | none => leafBlock r (.lineStart p) := by
  simp only [nextBlock, containers_of_levels hr, continued, hr, List.length_nil, Nat.sub_self,
    Reading.leaveMany, openContainers_of_not hp hindent h]
  rfl

theorem endList_of_levels (hr : r.levels = []) :
    r.endList.levels = [] ∧ r.endList.blocks = r.blocks := by
  obtain ⟨levels, blocks, itemBegun, afterBlank, definitions⟩ := r
  obtain rfl : levels = [] := hr
  cases afterBlank <;> exact ⟨rfl, rfl⟩

theorem blankLine_of_levels (hr : r.levels = []) :
    r.blankLine.levels = [] ∧ r.blankLine.blocks = r.blocks := by
  obtain ⟨levels, blocks, itemBegun, afterBlank, definitions⟩ := r
  obtain rfl : levels = [] := hr
  exact ⟨rfl, rfl⟩

theorem add_of_levels (hr : r.levels = []) (b : Block) :
    (r.add b).levels = [] ∧ (r.add b).blocks = b :: r.blocks := by
  obtain ⟨levels, blocks, itemBegun, afterBlank, definitions⟩ := r
  obtain rfl : levels = [] := hr
  exact ⟨rfl, rfl⟩

/-- One step of reading finds some blocks and goes on with `s`, still outside of all containers. -/
structure Reads (r : Reading) (p : Place) (found : List Block) (s : List Char) : Prop where
  levels : (nextBlock r p).1.levels = []
  blocks : (nextBlock r p).1.blocks = found ++ r.blocks
  rest : (nextBlock r p).2.rest = s

theorem reads_of_nextBlock {r' : Reading} {p' : Place} {found : List Block}
    (h : nextBlock r p = (r', p')) (hr' : r'.levels = [] ∧ r'.blocks = found ++ r.blocks) :
    Reads r p found p'.rest := by
  constructor
  · rw [h]
    exact hr'.1
  · rw [h]
    exact hr'.2
  · rw [h]

theorem reads_blank (hp : p.rest = eol.chars ++ s) (hr : r.levels = []) : Reads r p [] s := by
  have hend : (lineEnd? p.rest).isSome = true := by
    rw [hp, lineEnd?_eol]
    rfl
  have hblank : blankLine? p.rest = some eol.chars.length := by
    rw [blankLine?_lineEnd hend, hp, lineEnd?_eol]
  have hnext : nextBlock r p = (r.blankLine, p.skip eol.chars.length) := by
    obtain ⟨c, t, hc, hindent, hopens⟩ :
        ∃ c t, p.rest = c :: t ∧ isIndent c = false ∧ opensContainer c = false := by
      cases eol <;> exact ⟨_, _, hp, rfl, rfl⟩
    rw [nextBlock_of_not hc hindent hopens hr, hblank]
  have hrest : (p.skip eol.chars.length).rest = s := by
    rw [Place.rest_skip, hp, List.drop_left]
  exact hrest ▸ reads_of_nextBlock hnext (blankLine_of_levels hr)

/-! ## Leaf blocks -/

/-- A line with the sign at its start is a paragraph or opens a fenced code block. -/
structure StartsText (c : Char) : Prop where
  notSpace : isInlineSpace c = false
  notContainer : opensContainer c = false
  notHtml : c ≠ '<'
  notBreak : c ≠ '_'
  notHeading : c ≠ '#'
  notEnd : c ≠ '\n' ∧ c ≠ '\r'

theorem StartsText.notIndent {c : Char} (h : StartsText c) : isIndent c = false := by
  have hspace := h.notSpace
  simp only [isInlineSpace, Bool.or_eq_false_iff] at hspace
  rw [isIndent, Bool.or_eq_false_iff]
  exact hspace.1.1

theorem StartsText.not_blankLine? {c : Char} (h : StartsText c) (s : List Char) :
    blankLine? (c :: s) = none := by
  have hnone : countWhile isInlineSpace (c :: s) = 0 := by simp [countWhile, h.notSpace]
  have hend : lineEnd? (c :: s) = none := by simp [lineEnd?, h.notEnd]
  rw [blankLine?, hnone, List.drop_zero, hend, Option.map_none]

theorem StartsText.not_thematicBreak? {c : Char} (h : StartsText c) (s : List Char) :
    thematicBreak? (c :: s) = none := by
  obtain ⟨-, hminus, -, hstar, -⟩ := opensContainer_eq_false_iff.mp h.notContainer
  simp [thematicBreak?, hminus, hstar, h.notBreak]

theorem leafBlock_of_startsText {c : Char} (hp : p.rest = c :: s) (h : StartsText c) :
    leafBlock r (.lineStart p) =
      match fence? p.rest with
      | some fence =>
        (r.endList.add (fencedCode r.endList.containers fence 0 p).1,
          (fencedCode r.endList.containers fence 0 p).2)
      | none => definitionsAndParagraph (p.rest.length + 1) r.endList p := by
  have hflush : Flush p.rest := hp ▸ flush_cons h.notIndent s
  have hhtml : htmlStart? p.rest = none := by simp [hp, htmlStart?, h.notHtml]
  have hbreak : thematicBreak? p.rest = none := hp ▸ h.not_thematicBreak? s
  have hheading : headingLevel? p.rest = none := by
    have hnone : countWhile (· == '#') p.rest = 0 := by simp [hp, countWhile, h.notHeading]
    simp [headingLevel?, hnone]
  simp only [leafBlock, skipUpTo_flush hflush (by decide : 0 < 4), Cursor.place_lineStart, hhtml,
    hbreak, hheading]
  rfl

theorem reads_leaf {c : Char} {b : Block} {p' : Place} (hp : p.rest = c :: s) (h : StartsText c)
    (hr : r.levels = []) (hleaf : leafBlock r (.lineStart p) = (r.endList.add b, p')) :
    Reads r p [b] p'.rest := by
  have hblank : blankLine? p.rest = none := hp ▸ h.not_blankLine? s
  have hnext : nextBlock r p = (r.endList.add b, p') := by
    rw [nextBlock_of_not hp h.notIndent h.notContainer hr, hblank, hleaf]
  obtain ⟨hlevels, hblocks⟩ := endList_of_levels hr
  have hadd := add_of_levels hlevels b
  rw [hblocks] at hadd
  exact reads_of_nextBlock hnext hadd

/-! ## Paragraphs -/

theorem barsFrom_of_not (paired escaped : Bool) (i count last : Nat) (h : '|' ∉ line) :
    (barsFrom paired escaped i count last line).1 = count := by
  induction line generalizing escaped i with
  | nil => rfl
  | cons c rest ih =>
    rw [List.mem_cons, not_or] at h
    have hbar : ¬ (c = '|' ∧ (!escaped) = true) := fun hc => h.1 hc.1.symm
    rw [barsFrom, if_neg hbar]
    split <;> exact ih _ _ h.2

theorem startsText_of_isAlpha {c : Char} (h : c.isAlpha = true) : StartsText c := by
  have hdigit : c.isDigit = false := by
    rw [Bool.eq_false_iff]
    intro hdigit
    have hletter := isAlpha_iff.mp h
    have hdigit : 48 ≤ c.toNat ∧ c.toNat ≤ 57 := Char.isDigit_iff_toNat.mp hdigit
    omega
  have hsign : ∀ d : Char, d.isAlpha = false → c ≠ d := fun d hd => ne_of_holds h hd
  constructor
  · simp [isInlineSpace, hsign]
  · simp [opensContainer, hsign, hdigit]
  · exact hsign _ (by decide)
  · exact hsign _ (by decide)
  · exact hsign _ (by decide)
  · exact ⟨hsign _ (by decide), hsign _ (by decide)⟩

/-- What a paragraph needs to know of its line. -/
structure IsProse (line : List Char) : Prop where
  starts : ∃ c rest, line = c :: rest ∧ StartsText c ∧ c ≠ '\x60' ∧ c ≠ '~'
  noLf : '\n' ∉ line
  noCr : '\r' ∉ line
  noBar : '|' ∉ line

theorem table?_prose (h : IsProse line) (hp : p.rest = line ++ (eol.chars ++ s)) :
    table? [] p = none := by
  have hcolumns : headerColumns true line = 0 := by
    simp only [headerColumns, barsFrom_of_not true false 0 0 0 h.noBar, if_true]
  simp [table?, hp, lineText_line h.noLf h.noCr, hcolumns]

theorem paragraphLines_prose (h : IsProse line) (hs : (lineEnd? s).isSome = true)
    (hp : p.rest = line ++ (eol.chars ++ s)) (fuel : Nat) :
    ∃ next, next.rest = s ∧ paragraphLines [] (fuel + 1) p = ([p], false, next) := by
  have htext : lineText p.rest = line := by rw [hp, lineText_line h.noLf h.noCr]
  have hend : (lineEnd? (p.rest.drop line.length)).getD 0 = eol.chars.length := by
    rw [hp, List.drop_left, lineEnd?_eol, Option.getD_some]
  obtain ⟨next, hskip⟩ : ∃ next, p.skip (line.length + eol.chars.length) = next := ⟨_, rfl⟩
  have hnext : next.rest = s := by
    rw [← hskip, Place.rest_skip, hp, ← List.append_assoc, ← List.length_append, List.drop_left]
  have hflush : Flush next.rest := hnext ▸ flush_lineEnd hs
  have hunderline : underline? next.rest = none := hnext ▸ underline?_lineEnd hs
  have hatEnd : (Cursor.lineStart next).skipBlanks.atLineEnd = true := by
    have hnone : countWhile (fun d => d == ' ' || d == '\t') next.rest = 0 := by
      rw [hnext, countWhile, takeWhile_lineEnd rfl rfl hs, List.length_nil]
    rw [Cursor.atLineEnd, Cursor.skipBlanks, Cursor.place_lineStart, hnone, Place.skip_zero, hnext]
    exact hs
  refine ⟨next, hnext, ?_⟩
  simp only [paragraphLines, htext, hend, hskip, continued, skipColumns_flush hflush (by decide : 0 < 4),
    Cursor.place_lineStart, hunderline, ite_self, hatEnd, Bool.or_true, if_true]

/-- A line of prose with a blank line or nothing behind it is a paragraph. -/
theorem reads_paragraph (h : IsProse line) (hs : (lineEnd? s).isSome = true) (hr : r.levels = [])
    (hp : p.rest = line ++ (eol.chars ++ s)) : ∃ text, Reads r p [.paragraph text] s := by
  obtain ⟨c, rest, hline, hstart, htick, htilde⟩ := h.starts
  have hcons : p.rest = c :: (rest ++ (eol.chars ++ s)) := by rw [hp, hline]; rfl
  have hcontainers : r.endList.containers = [] := containers_of_levels (endList_of_levels hr).1
  have hfence : fence? p.rest = none := by simp [hcons, fence?, htick, htilde]
  have hdefinition : definition? [] p.rest = none := by
    obtain ⟨hbracket, -⟩ := opensContainer_eq_false_iff.mp hstart.notContainer
    simp [hcons, definition?, hbracket]
  obtain ⟨next, hnext, hlines⟩ := paragraphLines_prose h hs hp p.rest.length
  have hparagraph : ∃ text, paragraph [] p = (.paragraph text, next) := by
    simp only [paragraph, table?_prose h hp, hlines]
    exact ⟨_, rfl⟩
  obtain ⟨text, hparagraph⟩ := hparagraph
  have hleaf : leafBlock r (.lineStart p) = (r.endList.add (.paragraph text), next) := by
    rw [leafBlock_of_startsText hcons hstart, hfence]
    simp only [definitionsAndParagraph, hcontainers, hdefinition, hparagraph]
  exact ⟨text, hnext ▸ reads_leaf hcons hstart hr hleaf⟩

end Markdown
end LiveDoc
