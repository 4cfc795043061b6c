/-
The code blocks of a document, in order.

They can be listed from the outline, from the blocks, and from what has been read of a document
so far, with the containers that are still open.  The three lists agree.  While a document is
read, containers open and close, lists become loose and definitions are noted, and none of this
changes the list: only a block that is added does.
-/
import LiveDoc.Proofs.Outline.Blocks

namespace LiveDoc

mutual

/-- The code blocks in a node with their tags, depth first and from left to right. -/
def Node.blocks : Node → List (String × String)
  | .code tag text => [(tag, text)]
  | .blank => []
  | .container children => blocksAmong children

def blocksAmong : List Node → List (String × String)
  | [] => []
  | node :: rest => node.blocks ++ blocksAmong rest

end

theorem blocksAmong_append (a b : List Node) :
    blocksAmong (a ++ b) = blocksAmong a ++ blocksAmong b := by
  induction a with
  | nil => rfl
  | cons node rest ih => rw [List.cons_append, blocksAmong, blocksAmong, ih, List.append_assoc]

def Node.codes (node : Node) : List String := node.blocks.map Prod.snd

namespace Markdown

/-! ## Blocks -/

mutual

def Block.codes : Block → List String
  | .code _ lines => [String.join lines]
  | .quote blocks => blockCodes blocks
  | .list _ items => blockCodes items
  | .item blocks => blockCodes blocks
  | .footnote blocks => blockCodes blocks
  | _ => []

def blockCodes : List Block → List String
  | [] => []
  | b :: rest => b.codes ++ blockCodes rest

end

theorem blockCodes_append (a b : List Block) : blockCodes (a ++ b) = blockCodes a ++ blockCodes b := by
  induction a with
  | nil => rfl
  | cons block rest ih => rw [List.cons_append, blockCodes, blockCodes, ih, List.append_assoc]

mutual

theorem Inline.blocksAmong_nodes : (i : Inline) → blocksAmong i.nodes = []
  | .text _ => rfl
  | .content => rfl
  | .container _ children => by
    rw [Inline.nodes, blocksAmong, Node.blocks, blocksAmong_inlineNodes children]
    rfl

/-- There are no code blocks in inline content. -/
theorem blocksAmong_inlineNodes : (content : List Inline) → blocksAmong (inlineNodes content) = []
  | [] => rfl
  | i :: rest => by
    rw [inlineNodes, blocksAmong_append, i.blocksAmong_nodes, blocksAmong_inlineNodes rest]
    rfl

end

section
variable (defs : Definitions)

theorem blocksAmong_cellNodes (cells : List RunningText) :
    blocksAmong (cellNodes defs cells) = [] := by
  induction cells with
  | nil => rfl
  | cons cell rest ih =>
    rw [cellNodes, List.map_cons, blocksAmong, Node.blocks, RunningText.nodes,
      blocksAmong_inlineNodes]
    exact ih

theorem blocksAmong_rowNodes (rows : List (List RunningText)) :
    blocksAmong (rows.map fun row => Node.container (cellNodes defs row)) = [] := by
  induction rows with
  | nil => rfl
  | cons row rest ih =>
    rw [List.map_cons, blocksAmong, Node.blocks, blocksAmong_cellNodes, ih]
    rfl

mutual

theorem Block.blocksAmong_nodes (tight : Bool) : (b : Block) →
    (blocksAmong (b.nodes defs tight)).map Prod.snd = b.codes
  | .paragraph text => by
    rw [Block.nodes, RunningText.nodes]
    split
    · rw [blocksAmong_inlineNodes]
      rfl
    · rw [blocksAmong, Node.blocks, blocksAmong_inlineNodes]
      rfl
  | .heading text => by
    rw [Block.nodes, blocksAmong, Node.blocks, RunningText.nodes, blocksAmong_inlineNodes]
    rfl
  | .code _ _ => rfl
  | .html _ => rfl
  | .rule => rfl
  | .table head rows => by
    have hhead : (Node.container (cellNodes defs head)).blocks = [] :=
      blocksAmong_cellNodes defs head
    show (blocksAmong (Node.container (cellNodes defs head) :: _) ++ []).map Prod.snd = []
    rw [blocksAmong, hhead, blocksAmong_rowNodes]
    rfl
  | .task => rfl
  | .quote blocks => by
    rw [Block.nodes, blocksAmong, Node.blocks, blocksAmong, List.append_nil]
    exact blocksAmong_blockNodes false blocks
  | .list tight items => by
    rw [Block.nodes, blocksAmong, Node.blocks, blocksAmong, List.append_nil]
    exact blocksAmong_blockNodes tight items
  | .item blocks => by
    rw [Block.nodes, blocksAmong, Node.blocks, blocksAmong, List.append_nil]
    exact blocksAmong_blockNodes tight blocks
  | .footnote blocks => by
    rw [Block.nodes, blocksAmong, Node.blocks, blocksAmong, List.append_nil]
    exact blocksAmong_blockNodes false blocks

theorem blocksAmong_blockNodes (tight : Bool) : (blocks : List Block) →
    (blocksAmong (blockNodes defs tight blocks)).map Prod.snd = blockCodes blocks
  | [] => rfl
  | b :: rest => by
    rw [blockNodes, blocksAmong_append, List.map_append, b.blocksAmong_nodes tight,
      blocksAmong_blockNodes tight rest]
    rfl

end

end

/-! ## A document that is being read -/

def Level.codes (l : Level) : List String := blockCodes l.blocks.reverse

theorem Level.codes_block (l : Level) : l.block.codes = l.codes := by
  obtain ⟨container, tight, blocks⟩ := l
  cases container <;> rfl

/-- The code blocks in open containers, of which the innermost comes first. -/
def levelCodes : List Level → List String
  | [] => []
  | l :: outer => levelCodes outer ++ l.codes

namespace Reading

def codes (r : Reading) : List String := blockCodes r.blocks.reverse ++ levelCodes r.levels

variable (r : Reading)

theorem codes_add (b : Block) : (r.add b).codes = r.codes ++ b.codes := by
  obtain ⟨levels, blocks, itemBegun, afterBlank, definitions⟩ := r
  have hone : blockCodes [b] = b.codes := List.append_nil _
  cases levels with
  | nil => simp [codes, add, levelCodes, blockCodes_append, hone]
  | cons l outer => simp [codes, add, levelCodes, Level.codes, blockCodes_append, hone]

theorem codes_enter (c : Container) : (r.enter c).codes = r.codes := by
  simp [codes, enter, levelCodes, Level.codes, blockCodes]

/-- Closing a container puts its blocks behind those of the next one. -/
theorem codes_leave : r.leave.codes = r.codes := by
  obtain ⟨levels, blocks, itemBegun, afterBlank, definitions⟩ := r
  cases levels with
  | nil => rfl
  | cons l outer =>
    rw [leave]
    dsimp only
    rw [codes_add, l.codes_block]
    simp [codes, levelCodes]

theorem codes_leaveMany (n : Nat) : (leaveMany n r).codes = r.codes := by
  induction n generalizing r with
  | zero => rfl
  | succ n ih => rw [leaveMany, ih, codes_leave]

theorem codes_endEmptyItem : r.endEmptyItem.codes = r.codes := by
  have hleave : ∀ b : Bool, (if b then r.leave else r).codes = r.codes := by
    intro b
    split
    · exact r.codes_leave
    · rfl
  rw [endEmptyItem]
  split
  · exact hleave _
  · rfl

theorem codes_leaveList : r.leaveList.codes = r.codes := by
  rw [leaveList]
  split
  · split
    · exact r.codes_leave
    · rfl
  · rfl

theorem codes_loosen : r.loosen.codes = r.codes := by
  obtain ⟨levels, blocks, itemBegun, afterBlank, definitions⟩ := r
  rw [loosen]
  split
  · dsimp only
    split
    · split <;> rfl
    · rfl
  · rfl

theorem codes_endList : r.endList.codes = r.codes := by
  rw [endList, codes_loosen, codes_leaveList, codes_endEmptyItem]

theorem codes_enterItem (mark : Char) (indent : Nat) :
    (r.enterItem mark indent).codes = r.codes := by
  have hended := r.codes_endEmptyItem
  have hnew : ({ r.endEmptyItem.endList.enter (.list mark) with afterBlank := false } : Reading).codes
      = r.codes := (codes_enter _ _).trans ((codes_endList _).trans hended)
  rw [enterItem]
  dsimp only
  rw [codes_enter]
  split
  · next mark' tight blocks outer hlevels =>
    split
    · rw [Option.getD_some, ← hended, codes, codes, hlevels]
      rfl
    · exact hnew
  · exact hnew

theorem codes_enterFootnote (label : Label) : (r.enterFootnote label).codes = r.codes := by
  have hended := r.codes_endList
  rw [enterFootnote]
  dsimp only
  split
  · exact (codes_enter _ _).trans ((codes_leave _).trans hended)
  · exact (codes_enter _ _).trans hended

theorem codes_blankLine : r.blankLine.codes = r.codes := by
  obtain ⟨levels, blocks, itemBegun, afterBlank, definitions⟩ := r
  cases levels with
  | nil => rfl
  | cons l outer =>
    obtain ⟨container, tight, blocks⟩ := l
    cases container <;> rfl

theorem codes_define (label : Label) : (r.define label).codes = r.codes := rfl

theorem length_levels_leave : r.leave.levels.length = r.levels.length - 1 := by
  obtain ⟨levels, blocks, itemBegun, afterBlank, definitions⟩ := r
  cases levels with
  | nil => rfl
  | cons l outer => cases outer <;> rfl

theorem levels_leaveMany {n : Nat} (h : r.levels.length ≤ n) : (leaveMany n r).levels = [] := by
  induction n generalizing r with
  | zero => exact List.length_eq_zero_iff.mp (Nat.le_zero.mp h)
  | succ n ih =>
    have hlength := r.length_levels_leave
    exact ih r.leave (by omega)

theorem codes_finish : blockCodes r.finish = r.codes := by
  have hall := r.codes_leaveMany r.levels.length
  rw [codes, r.levels_leaveMany (Nat.le_refl _)] at hall
  rw [finish, ← hall]
  exact (List.append_nil _).symm

end Reading

theorem codes_ofMarkdown (source : String) :
    (Node.ofMarkdown source).codes = (reading source).codes := by
  rw [ofMarkdown_eq, Node.codes, Node.blocks, blocksAmong_blockNodes, Reading.codes_finish]

end Markdown
end LiveDoc
