/-
Which output goes with an example.

The output documented for an example is the first block behind it, in the same container,
that comes to a node of the outline, if that is an untagged code block.  Almost every block
comes to a node and so keeps an example from an output further on.  The exception is a
paragraph of a tight list item without links, images and emphasis: the example's output is
looked for behind it.
-/
import Mathlib.Data.List.Forall2
import LiveDoc.Proofs.Outline.Blocks

namespace LiveDoc
namespace Markdown

/-! ## Blocks that come to nothing -/

def Inline.isBare : Inline → Bool
  | .container _ _ => false
  | _ => true

def Block.isSilent (defs : Definitions) (tight : Bool) : Block → Bool
  | .paragraph text => tight && (text.inline defs).all Inline.isBare
  | .task => true
  | _ => false

def Block.output? : Block → Option String
  | .code info lines => if codeTag info = "" then some (String.join lines) else none
  | _ => none

/-- The output that the first of some blocks documents, silent ones aside. -/
def documentedAmong (defs : Definitions) (tight : Bool) : List Block → Option String
  | [] => none
  | b :: rest => if b.isSilent defs tight then documentedAmong defs tight rest else b.output?

/-! ## Where examples stand -/

/-- The place of an example: whether it is in a tight list item, and the blocks behind it in
its container. -/
structure Spot where
  code : String
  tight : Bool
  behind : List Block

def Spot.toExample (defs : Definitions) (spot : Spot) : Example :=
  ⟨spot.code, documentedAmong defs spot.tight spot.behind⟩

mutual

def Block.spots (tag : String) (tight : Bool) (behind : List Block) : Block → List Spot
  | .code info lines =>
    if codeTag info = tag ∧ String.join lines ≠ "" then [⟨String.join lines, tight, behind⟩] else []
  | .quote blocks => spotsAmong tag false blocks
  | .list tight items => spotsAmong tag tight items
  | .item blocks => spotsAmong tag tight blocks
  | .footnote blocks => spotsAmong tag false blocks
  | _ => []

def spotsAmong (tag : String) (tight : Bool) : List Block → List Spot
  | [] => []
  | b :: rest => b.spots tag tight rest ++ spotsAmong tag tight rest

end

/-! ## The outline of inline content holds no code -/

def Quiet (tag : String) : Node → Prop
  | .container children => examplesAmong tag children = []
  | _ => False

theorem examplesAmong_append_of_quiet {tag : String} {nodes : List Node}
    (h : ∀ n ∈ nodes, Quiet tag n) (rest : List Node) :
    examplesAmong tag (nodes ++ rest) = examplesAmong tag rest := by
  induction nodes with
  | nil => rfl
  | cons n others ih =>
    have hothers := ih fun m hm => h m (List.mem_cons_of_mem n hm)
    have hn := h n List.mem_cons_self
    cases n with
    | code tag text => exact hn.elim
    | blank => exact hn.elim
    | container children =>
      have hchildren : examplesAmong tag children = [] := hn
      rw [List.cons_append, examplesAmong_container, hchildren, hothers, List.nil_append]

theorem examplesAmong_of_quiet {tag : String} {nodes : List Node}
    (h : ∀ n ∈ nodes, Quiet tag n) : examplesAmong tag nodes = [] := by
  rw [← List.append_nil nodes, examplesAmong_append_of_quiet h]
  rfl

mutual

theorem Inline.quiet (tag : String) : (i : Inline) → ∀ n ∈ i.nodes, Quiet tag n
  | .text _ => by simp [Inline.nodes]
  | .content => by simp [Inline.nodes]
  | .container _ children => by
    intro n hn
    rw [Inline.nodes, List.mem_singleton] at hn
    rw [hn]
    exact examplesAmong_of_quiet (inlineNodes_quiet tag children)

theorem inlineNodes_quiet (tag : String) :
    (content : List Inline) → ∀ n ∈ inlineNodes content, Quiet tag n
  | [] => by simp [inlineNodes]
  | i :: rest => by
    intro n hn
    rw [inlineNodes, List.mem_append] at hn
    rcases hn with hn | hn
    · exact i.quiet tag n hn
    · exact inlineNodes_quiet tag rest n hn

end

variable (defs : Definitions) (tag : String) (tight : Bool)

theorem RunningText.quiet (text : RunningText) : ∀ n ∈ text.nodes defs, Quiet tag n :=
  inlineNodes_quiet tag (text.inline defs)

theorem cellNodes_quiet (cells : List RunningText) : ∀ n ∈ cellNodes defs cells, Quiet tag n := by
  intro n hn
  obtain ⟨cell, -, rfl⟩ := List.mem_map.mp hn
  exact examplesAmong_of_quiet (cell.quiet defs tag)

/-! ## The output behind an example -/

theorem outputAmong_inlineNodes (content : List Inline) (rest : List Node) :
    outputAmong (inlineNodes content ++ rest) =
      if content.all Inline.isBare then outputAmong rest else none := by
  induction content with
  | nil => rfl
  | cons i others ih =>
    cases i with
    | text s => exact ih
    | content => exact ih
    | container tag children => rfl

theorem outputAmong_nodes (b : Block) (rest : List Node) :
    outputAmong (b.nodes defs tight ++ rest) =
      if b.isSilent defs tight then outputAmong rest else b.output? := by
  cases b with
  | paragraph text =>
    cases tight with
    | false => rfl
    | true => exact outputAmong_inlineNodes (text.inline defs) rest
  | _ => rfl

theorem outputAmong_blockNodes (blocks : List Block) :
    outputAmong (blockNodes defs tight blocks) = documentedAmong defs tight blocks := by
  induction blocks with
  | nil => rfl
  | cons b rest ih => rw [blockNodes, outputAmong_nodes, ih, documentedAmong]

/-! ## The examples of a document -/

theorem tableNodes_quiet (head : List RunningText) (rows : List (List RunningText)) :
    ∀ n ∈ Node.container (cellNodes defs head) ::
      rows.map (fun row => .container (cellNodes defs row)), Quiet tag n := by
  intro n hn
  rcases List.mem_cons.mp hn with rfl | hn
  · exact examplesAmong_of_quiet (cellNodes_quiet defs tag head)
  · obtain ⟨row, -, rfl⟩ := List.mem_map.mp hn
    exact examplesAmong_of_quiet (cellNodes_quiet defs tag row)

mutual

theorem examplesAmong_nodes (tight : Bool) (b : Block) (rest : List Block) :
    examplesAmong tag (b.nodes defs tight ++ blockNodes defs tight rest) =
      (b.spots tag tight rest).map (Spot.toExample defs) ++
        examplesAmong tag (blockNodes defs tight rest) := by
  cases b with
  | paragraph text =>
    cases tight with
    | false =>
      have htext := examplesAmong_of_quiet (text.quiet defs tag)
      rw [Block.nodes, if_neg Bool.false_ne_true, List.singleton_append, examplesAmong_container,
        htext]
      rfl
    | true => exact examplesAmong_append_of_quiet (text.quiet defs tag) _
  | heading text =>
    have htext := examplesAmong_of_quiet (text.quiet defs tag)
    rw [Block.nodes, List.singleton_append, examplesAmong_container, htext]
    rfl
  | code info lines =>
    -- The only place where the blocks behind matter.
    rw [Block.nodes, List.singleton_append, examplesAmong_code, outputAmong_blockNodes, Block.spots]
    split <;> rfl
  | html lines => rfl
  | rule => rfl
  | table head rows =>
    have hcells := examplesAmong_of_quiet (tableNodes_quiet defs tag head rows)
    rw [Block.nodes, List.singleton_append, examplesAmong_container, hcells]
    rfl
  | task => rfl
  | quote blocks =>
    rw [Block.nodes, List.singleton_append, examplesAmong_container,
      examplesAmong_blockNodes false blocks, Block.spots]
  | list tight items =>
    rw [Block.nodes, List.singleton_append, examplesAmong_container,
      examplesAmong_blockNodes tight items, Block.spots]
  | item blocks =>
    rw [Block.nodes, List.singleton_append, examplesAmong_container,
      examplesAmong_blockNodes tight blocks, Block.spots]
  | footnote blocks =>
    rw [Block.nodes, List.singleton_append, examplesAmong_container,
      examplesAmong_blockNodes false blocks, Block.spots]

theorem examplesAmong_blockNodes (tight : Bool) (blocks : List Block) :
    examplesAmong tag (blockNodes defs tight blocks) =
      (spotsAmong tag tight blocks).map (Spot.toExample defs) := by
  cases blocks with
  | nil => rfl
  | cons b rest =>
    rw [blockNodes, examplesAmong_nodes tight b rest, examplesAmong_blockNodes tight rest,
      spotsAmong, List.map_append]

end

/-! ## The law -/

theorem documentedAmong_append {between : List Block} (h : ∀ b ∈ between, b.output? = none)
    (info : Option String) (lines : List String) (after : List Block) :
    documentedAmong defs tight (between ++ .code info lines :: after) =
      if between.all (Block.isSilent defs tight) then (Block.code info lines).output? else none := by
  induction between with
  | nil => rfl
  | cons b others ih =>
    rw [List.cons_append, documentedAmong, List.all_cons]
    cases hsilent : b.isSilent defs tight with
    | true => simpa using ih fun b' hb' => h b' (List.mem_cons_of_mem b hb')
    | false => simpa using h b List.mem_cons_self

theorem documentedAmong_eq_none {blocks : List Block} (h : ∀ b ∈ blocks, b.output? = none) :
    documentedAmong defs tight blocks = none := by
  induction blocks with
  | nil => rfl
  | cons b rest ih =>
    rw [documentedAmong, ih fun b' hb' => h b' (List.mem_cons_of_mem b hb'),
      h b List.mem_cons_self, ite_self]

/-- Whatever the document, its examples are the code blocks with the tag that are not empty, one
for each and in their order.  The output documented for one is that of the next untagged code
block in its container if all blocks between are silent, and there is none if one of them is
not or if no untagged code block follows. -/
theorem examples_adjacent (source tag : String) :
    List.Forall₂
      (fun (spot : Spot) (e : Example) =>
        e.code = spot.code ∧
        (∀ between info lines after, spot.behind = between ++ .code info lines :: after →
          codeTag info = "" → (∀ b ∈ between, b.output? = none) →
          e.expected =
            if between.all (Block.isSilent (reading source).definitions spot.tight) then
              some (String.join lines)
            else none) ∧
        ((∀ b ∈ spot.behind, b.output? = none) → e.expected = none))
      (spotsAmong tag false (reading source).finish) ((Node.ofMarkdown source).examples tag) := by
  rw [ofMarkdown_eq, Node.examples, examplesAmong_blockNodes, List.forall₂_map_right_iff,
    List.forall₂_same]
  intro spot _
  refine ⟨rfl, ?_, ?_⟩
  · intro between info lines after hbehind huntagged hbetween
    rw [Spot.toExample, hbehind, documentedAmong_append _ _ hbetween, Block.output?,
      if_pos huntagged]
  · exact documentedAmong_eq_none _ _

/-- An item of a tight list with prose between the code and a code block without a tag. -/
def tightProse : String :=
  "- \x60\x60\x60lisp\n  (foo)\n  \x60\x60\x60\n  prose\n  \x60\x60\x60\n  FOO\n  \x60\x60\x60\n"

set_option maxRecDepth 8000 in
/-- The prose shows, but it does not keep the example from the output behind it. -/
theorem examples_tightProse :
    parse tightProse =
        [.opens .list, .opens .item, .opensCode (some "lisp"), .text "(foo)\n", .closesCode,
          .text "prose", .opensCode (some ""), .text "FOO\n", .closesCode,
          .closes .item, .closes .list] ∧
      (Node.ofMarkdown tightProse).examples "lisp" = [⟨"(foo)\n", some "FOO\n"⟩] := by
  decide +kernel

end Markdown
end LiveDoc
