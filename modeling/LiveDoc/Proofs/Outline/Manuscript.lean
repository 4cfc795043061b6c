/-
Documents that are written and read again.

A manuscript is a list of paragraphs and fenced code blocks.  Written with blank lines between
them, it is a Markdown document whose blocks are those passages, and so its examples are known
before it is read.  The text after each blank line stands on its own: reading goes from
passage to passage.
-/
import LiveDoc.Proofs.Markdown.FencedCode
import LiveDoc.Proofs.Outline.Adjacency

namespace LiveDoc
namespace Markdown

/-! ## Manuscripts -/

structure Word where
  chars : List Char
  nonempty : chars ≠ []
  letters : chars.all Char.isAlpha = true

structure CodeTag where
  chars : List Char
  plain : chars.all isTagChar = true

theorem CodeTag.isTagChar_of_mem (tag : CodeTag) : ∀ c ∈ tag.chars, isTagChar c = true :=
  List.all_eq_true.mp tag.plain

structure CodeLine where
  chars : List Char
  isBody : IsBody chars

inductive Passage where
  | prose (word : Word)
  | code (tag : CodeTag) (lines : List CodeLine)

def Passage.lines : Passage → List (List Char)
  | .prose word => [word.chars]
  | .code tag lines => (ticks ++ tag.chars) :: lines.map (·.chars) ++ [ticks]

/-- The lines of a document with the given passages.  A passage comes with the number of empty
lines, beside the first, that are between it and the next. -/
def manuscriptLines : List (Passage × Nat) → List (List Char)
  | [] => []
  | [(passage, _)] => passage.lines
  | (passage, more) :: rest => passage.lines ++ List.replicate (more + 1) [] ++ manuscriptLines rest

def manuscript (eol : LineEnd) (doc : List (Passage × Nat)) : String :=
  String.ofList (written eol (manuscriptLines doc))

/-! ## The examples of a manuscript -/

def codeOf (lines : List CodeLine) : String := String.join (lines.map fun line => lineWithLf line.chars)

def outputOf : List Passage → Option String
  | .code tag lines :: _ => if tag.chars = [] then some (codeOf lines) else none
  | _ => none

def examplesOf (lang : String) : List Passage → List Example
  | [] => []
  | .prose _ :: rest => examplesOf lang rest
  | .code tag lines :: rest =>
    if String.ofList tag.chars = lang ∧ lines ≠ [] then
      ⟨codeOf lines, outputOf rest⟩ :: examplesOf lang rest
    else examplesOf lang rest

theorem codeOf_eq_empty (lines : List CodeLine) : codeOf lines = "" ↔ lines = [] := by
  cases lines with
  | nil => exact iff_of_true rfl rfl
  | cons line rest =>
    refine iff_of_false ?_ (List.cons_ne_nil _ _)
    intro h
    have hlist := congrArg String.toList h
    simp [codeOf, lineWithLf] at hlist

inductive ReadAs : Passage → Block → Prop
  | prose (word : Word) (text : RunningText) : ReadAs (.prose word) (.paragraph text)
  | code (tag : CodeTag) (lines : List CodeLine) :
    ReadAs (.code tag lines)
      (.code (some (String.ofList tag.chars)) (lines.map fun line => lineWithLf line.chars))

theorem documentedAmong_readAs (defs : Definitions) {passages : List Passage} {blocks : List Block}
    (h : List.Forall₂ ReadAs passages blocks) :
    documentedAmong defs false blocks = outputOf passages := by
  cases h with
  | nil => rfl
  | cons hread _ =>
    cases hread with
    | prose word text => rfl
    | code tag lines =>
      have htag : codeTag (some (String.ofList tag.chars)) = "" ↔ tag.chars = [] := by
        rw [codeTag_tag tag.isTagChar_of_mem]
        exact String.ofList_eq_empty_iff
      simp only [documentedAmong, Block.isSilent, Block.output?, htag]
      rfl

theorem spots_readAs (defs : Definitions) (lang : String) {passages : List Passage}
    {blocks : List Block} (h : List.Forall₂ ReadAs passages blocks) :
    (spotsAmong lang false blocks).map (Spot.toExample defs) = examplesOf lang passages := by
  induction h with
  | nil => rfl
  | @cons passage block passages blocks hread hrest ih =>
    rw [spotsAmong, List.map_append, ih]
    cases hread with
    | prose word text => rfl
    | code tag lines =>
      have hcode : String.join (lines.map fun line => lineWithLf line.chars) ≠ "" ↔ lines ≠ [] :=
        not_congr (codeOf_eq_empty lines)
      simp only [Block.spots, codeTag_tag tag.isTagChar_of_mem, hcode, examplesOf]
      split
      · rw [List.map_singleton, Spot.toExample, documentedAmong_readAs defs hrest]
        rfl
      · rfl

/-! ## Reading a manuscript -/

variable {eol : LineEnd} {s : List Char}

theorem isProse_word (word : Word) : IsProse word.chars := by
  have hletters := List.all_eq_true.mp word.letters
  have hsign : ∀ d : Char, d.isAlpha = false → d ∉ word.chars := fun d hd hmem =>
    Bool.false_ne_true (hd.symm.trans (hletters d hmem))
  constructor
  · obtain ⟨c, rest, hchars⟩ := List.exists_cons_of_ne_nil word.nonempty
    have hc : c ∈ word.chars := hchars ▸ List.mem_cons_self
    refine ⟨c, rest, hchars, startsText_of_isAlpha (hletters c hc), ?_, ?_⟩
    · rintro rfl
      exact hsign _ (by decide) hc
    · rintro rfl
      exact hsign _ (by decide) hc
  · exact hsign _ (by decide)
  · exact hsign _ (by decide)
  · exact hsign _ (by decide)

theorem reads_passage {r : Reading} {p : Place} (passage : Passage) (hs : (lineEnd? s).isSome = true)
    (hr : r.levels = []) (hp : p.rest = written eol passage.lines ++ s) :
    ∃ b, ReadAs passage b ∧ Reads r p [b] s := by
  cases passage with
  | prose word =>
    have hline : p.rest = word.chars ++ (eol.chars ++ s) := by
      rw [hp, Passage.lines, written_cons, written_nil, List.append_nil, List.append_assoc]
    obtain ⟨text, hread⟩ := reads_paragraph (isProse_word word) hs hr hline
    exact ⟨_, .prose word text, hread⟩
  | code tag lines =>
    have hbody : ∀ line ∈ lines.map (·.chars), IsBody line := by
      intro line hline
      obtain ⟨line, -, rfl⟩ := List.mem_map.mp hline
      exact line.isBody
    have hread := reads_code tag.isTagChar_of_mem hbody hr hp
    rw [List.map_map] at hread
    exact ⟨_, .code tag lines, hread⟩

/-- The text comes to the given passages wherever it is read outside of all containers. -/
def ComesTo (s : List Char) (passages : List Passage) : Prop :=
  ∀ (r : Reading) (p : Place) (fuel : Nat), r.levels = [] → p.rest = s → s.length < fuel →
    ∃ blocks, List.Forall₂ ReadAs passages blocks ∧ (blocksFrom fuel r p).levels = [] ∧
      (blocksFrom fuel r p).blocks = blocks.reverse ++ r.blocks

theorem comesTo_nil : ComesTo [] [] := by
  intro r p fuel hr hp hfuel
  have hdone : blocksFrom fuel r p = r := by
    cases fuel with
    | zero => rfl
    | succ fuel => simp [blocksFrom, hp]
  exact ⟨[], .nil, by rw [hdone, hr], by rw [hdone]; rfl⟩

theorem blocksFrom_step {r : Reading} {p : Place} {found : List Block} {passages : List Passage}
    {fuel : Nat} (hread : Reads r p found s) (h : ComesTo s passages) (hfuel : s.length < fuel)
    (hne : p.rest ≠ []) :
    ∃ blocks, List.Forall₂ ReadAs passages blocks ∧ (blocksFrom (fuel + 1) r p).levels = [] ∧
      (blocksFrom (fuel + 1) r p).blocks = blocks.reverse ++ (found ++ r.blocks) := by
  have hstep : blocksFrom (fuel + 1) r p = blocksFrom fuel (nextBlock r p).1 (nextBlock r p).2 := by
    rw [blocksFrom, if_neg (by simp [hne])]
  rw [hstep, ← hread.blocks]
  exact h _ _ fuel hread.levels hread.rest hfuel

theorem comesTo_blank {passages : List Passage} (h : ComesTo s passages) :
    ComesTo (eol.chars ++ s) passages := by
  intro r p fuel hr hp hfuel
  have hend : eol.chars.length ≠ 0 := by cases eol <;> decide
  rw [List.length_append] at hfuel
  obtain ⟨fuel, rfl⟩ := Nat.exists_eq_add_one_of_ne_zero (Nat.ne_zero_of_lt hfuel)
  have hne : p.rest ≠ [] := by
    rw [hp, ← List.length_pos_iff, List.length_append]
    omega
  exact blocksFrom_step (reads_blank hp hr) h (by omega) hne

theorem comesTo_blanks {passages : List Passage} (h : ComesTo s passages) (n : Nat) :
    ComesTo (written eol (List.replicate n []) ++ s) passages := by
  induction n with
  | zero => exact h
  | succ n ih =>
    rw [List.replicate_succ, written_cons, List.nil_append, List.append_assoc]
    exact comesTo_blank ih

theorem comesTo_passage (passage : Passage) {passages : List Passage}
    (hs : (lineEnd? s).isSome = true) (h : ComesTo s passages) :
    ComesTo (written eol passage.lines ++ s) (passage :: passages) := by
  intro r p fuel hr hp hfuel
  have hlong : 0 < (written eol passage.lines).length := by
    have hlines : 0 < passage.lines.length := by cases passage <;> exact Nat.succ_pos _
    exact Nat.lt_of_lt_of_le hlines (length_le_written eol passage.lines)
  rw [List.length_append] at hfuel
  obtain ⟨fuel, rfl⟩ := Nat.exists_eq_add_one_of_ne_zero (Nat.ne_zero_of_lt hfuel)
  have hne : p.rest ≠ [] := by
    rw [hp, ← List.length_pos_iff, List.length_append]
    omega
  have hless : s.length < fuel := by omega
  obtain ⟨b, hb, hread⟩ := reads_passage passage hs hr hp
  obtain ⟨blocks, hblocks, hlevels, hfound⟩ := blocksFrom_step hread h hless hne
  refine ⟨b :: blocks, .cons hb hblocks, hlevels, ?_⟩
  rw [hfound, List.reverse_cons, List.append_assoc]

/-- By induction on the passages: behind each of them the text ends or goes on with a blank
line. -/
theorem comesTo_manuscriptLines (eol : LineEnd) (doc : List (Passage × Nat)) :
    ComesTo (written eol (manuscriptLines doc)) (doc.map Prod.fst) := by
  induction doc using manuscriptLines.induct with
  | case1 => exact comesTo_nil
  | case2 passage more =>
    rw [manuscriptLines, ← List.append_nil (written eol passage.lines)]
    exact comesTo_passage passage rfl comesTo_nil
  | case3 passage more rest hrest ih =>
    rw [manuscriptLines, List.append_assoc, written_append, written_append, List.map_cons]
    · refine comesTo_passage passage ?_ (comesTo_blanks ih (more + 1))
      rw [List.replicate_succ, written_cons, List.nil_append, List.append_assoc, lineEnd?_eol]
      rfl
    · exact hrest

/-- Whatever passages are written, with any number of blank lines between them and either line
end, reading gives back an example for each code block with the tag that has a line. -/
theorem examples_manuscript (eol : LineEnd) (doc : List (Passage × Nat)) (lang : String) :
    (Node.ofMarkdown (manuscript eol doc)).examples lang = examplesOf lang (doc.map Prod.fst) := by
  obtain ⟨blocks, hread, hlevels, hblocks⟩ :=
    comesTo_manuscriptLines eol doc .start (.start (written eol (manuscriptLines doc)))
      ((written eol (manuscriptLines doc)).length + 1) rfl rfl (Nat.lt_succ_self _)
  have htext : (manuscript eol doc).toList = written eol (manuscriptLines doc) :=
    String.toList_ofList
  have hfinish : (reading (manuscript eol doc)).finish = blocks := by
    rw [reading, htext, Reading.finish, hlevels, List.length_nil, Reading.leaveMany, hblocks]
    simp [Reading.start]
  rw [ofMarkdown_eq, Node.examples, examplesAmong_blockNodes, hfinish]
  exact spots_readAs _ lang hread

example :
    manuscript .crLf
        [(.code ⟨['s', 'h'], rfl⟩ [⟨['l', 's'], by decide, by decide, by decide⟩], 1),
          (.prose ⟨['E', 'n', 'd'], by decide, rfl⟩, 0)] =
      "\x60\x60\x60sh\r\nls\r\n\x60\x60\x60\r\n\r\n\r\nEnd\r\n" := by
  decide

end Markdown
end LiveDoc
