/-
The examples of a document, read off its events.

The outline takes two steps to the examples: a builder with a stack makes a tree, and the
examples are looked for in it, each with its next sibling.  A single pass over the events
finds the same.  A code block is an example if it has the tag and some text, and its output is
the untagged code block that the next event with a structural meaning opens.

`Agree` compares events with nodes that stand behind a place in a container.  Putting a piece
of a document in front keeps it, and entering and leaving a container is the case with no
nodes behind, whatever events there are.
-/
import LiveDoc.Proofs.Outline.Blocks

namespace LiveDoc
namespace Markdown

open Builder (Adds)

/-! ## One pass over the events -/

def codeText : List Event → String
  | .text s :: rest => s ++ codeText rest
  | _ => ""

def behindCode : List Event → List Event
  | [] => []
  | .closesCode :: rest => rest
  | _ :: rest => behindCode rest

/-- The text of the untagged code block that the next structural event opens, if it opens one. -/
def outputNext : List Event → Option String
  | .text _ :: rest => outputNext rest
  | .content :: rest => outputNext rest
  | .opensCode info :: rest => if codeTag info = "" then some (codeText rest) else none
  | _ => none

def scan (tag : String) : List Event → List Example
  | [] => []
  | .opensCode info :: rest =>
    if codeTag info = tag ∧ codeText rest ≠ "" then
      ⟨codeText rest, outputNext (behindCode rest)⟩ :: scan tag rest
    else scan tag rest
  | _ :: rest => scan tag rest

/-- Events in which all that opens is closed, and code blocks hold text only. -/
inductive Nested : List Event → Prop
  | nil : Nested []
  | text (s : String) : Nested [.text s]
  | content : Nested [.content]
  | rule : Nested [.rule]
  | code (info : Option String) (pieces : List String) :
      Nested (.opensCode info :: pieces.map .text ++ [.closesCode])
  | within (tag : Tag) {events : List Event} (h : Nested events) : Nested (within tag events)
  | append {a b : List Event} (ha : Nested a) (hb : Nested b) : Nested (a ++ b)

/-! ## Code blocks -/

theorem codeText_pieces (pieces : List String) (rest : List Event) :
    codeText (pieces.map .text ++ .closesCode :: rest) = String.join pieces := by
  induction pieces with
  | nil => rfl
  | cons piece others ih => rw [List.map_cons, List.cons_append, codeText, ih, String.join_cons]

theorem behindCode_pieces (pieces : List String) (rest : List Event) :
    behindCode (pieces.map .text ++ .closesCode :: rest) = rest := by
  induction pieces with
  | nil => rfl
  | cons piece others ih => exact ih

theorem scan_pieces (tag : String) (pieces : List String) (rest : List Event) :
    scan tag (pieces.map .text ++ .closesCode :: rest) = scan tag rest := by
  induction pieces with
  | nil => rfl
  | cons piece others ih => exact ih

theorem scan_code (tag : String) (info : Option String) (pieces : List String)
    (rest : List Event) :
    scan tag (.opensCode info :: pieces.map .text ++ .closesCode :: rest) =
      (if codeTag info = tag ∧ String.join pieces ≠ "" then
        [⟨String.join pieces, outputNext rest⟩] else []) ++ scan tag rest := by
  rw [List.cons_append, scan, codeText_pieces, behindCode_pieces, scan_pieces]
  split <;> rfl

/-! ## Events and nodes behind a place -/

/-- The events behind a place in a container and the nodes behind it in this container tell
the same: the same output for code in front of it, and the same examples, but for those
`later` behind the container. -/
structure Agree (tag : String) (events : List Event) (nodes : List Node) (later : List Example) :
    Prop where
  output_eq : outputNext events = outputAmong nodes
  examples_eq : scan tag events = examplesAmong tag nodes ++ later

variable {tag : String}

/-- Nothing is behind the last place of a container. -/
theorem Agree.closes (t : Tag) (events : List Event) :
    Agree tag (.closes t :: events) [] (scan tag events) := ⟨rfl, rfl⟩

theorem Agree.container {t : Tag} {inside events : List Event} {children nodes : List Node}
    {later : List Example} (hbehind : Agree tag events nodes later)
    (hinside : Agree tag (inside ++ .closes t :: events) children (scan tag events)) :
    Agree tag (within t inside ++ events) (.container children :: nodes) later := by
  have hevents : within t inside ++ events = .opens t :: (inside ++ .closes t :: events) := by
    rw [within, List.cons_append, List.cons_append, List.append_assoc, List.singleton_append]
  have hopens : scan tag (.opens t :: (inside ++ .closes t :: events)) =
      scan tag (inside ++ .closes t :: events) := rfl
  refine ⟨rfl, ?_⟩
  rw [hevents, hopens, hinside.examples_eq, hbehind.examples_eq, examplesAmong_container,
    List.append_assoc]

theorem Agree.code {info : Option String} {pieces : List String} {events : List Event}
    {nodes : List Node} {later : List Example} (hbehind : Agree tag events nodes later) :
    Agree tag (.opensCode info :: pieces.map .text ++ [.closesCode] ++ events)
      (.code (codeTag info) (String.join pieces) :: nodes) later := by
  have hevents : (.opensCode info :: pieces.map .text ++ [.closesCode] ++ events : List Event) =
      .opensCode info :: pieces.map .text ++ .closesCode :: events := by simp
  rw [hevents]
  constructor
  · rw [List.cons_append, outputNext, codeText_pieces]
    rfl
  · rw [scan_code, hbehind.output_eq, hbehind.examples_eq, examplesAmong_code, List.append_assoc]

/-- Nested events come to nodes that agree with them, whatever stands behind. -/
theorem Nested.agrees (tag : String) {events : List Event} (h : Nested events) :
    ∃ nodes, Adds events nodes ∧ ∀ behind rest later,
      Agree tag behind rest later → Agree tag (events ++ behind) (nodes ++ rest) later := by
  induction h with
  | nil => exact ⟨[], Adds.nil, fun _ _ _ h => h⟩
  | text s => exact ⟨[], Adds.text s, fun _ _ _ h => ⟨h.output_eq, h.examples_eq⟩⟩
  | content => exact ⟨[], Adds.content, fun _ _ _ h => ⟨h.output_eq, h.examples_eq⟩⟩
  | rule => exact ⟨[.container []], Adds.rule, fun _ _ _ h => ⟨rfl, h.examples_eq⟩⟩
  | code info pieces =>
    exact ⟨[.code (codeTag info) (String.join pieces)], Adds.code info pieces,
      fun _ _ _ h => h.code⟩
  | within t h ih =>
    obtain ⟨children, hadds, hagree⟩ := ih
    refine ⟨[.container children], hadds.within t, fun behind rest later hbehind => ?_⟩
    have hinside := hagree _ _ _ (Agree.closes t behind)
    rw [List.append_nil] at hinside
    exact hbehind.container hinside
  | append ha hb iha ihb =>
    obtain ⟨nodes, hadds, hagree⟩ := iha
    obtain ⟨nodes', hadds', hagree'⟩ := ihb
    refine ⟨nodes ++ nodes', hadds.append hadds', fun behind rest later hbehind => ?_⟩
    rw [List.append_assoc, List.append_assoc]
    exact hagree _ _ _ (hagree' _ _ _ hbehind)

theorem Nested.examples_eq (tag : String) {events : List Event} (h : Nested events) :
    ∃ nodes, Adds events nodes ∧ examplesAmong tag nodes = scan tag events := by
  obtain ⟨nodes, hadds, hagree⟩ := h.agrees tag
  have hall := (hagree [] [] [] ⟨rfl, rfl⟩).examples_eq
  simp only [List.append_nil] at hall
  exact ⟨nodes, hadds, hall.symm⟩

/-- For all nested events, however deep, the examples in the outline that is built of them are
those that one pass over the events finds, in the same order and with the same outputs. -/
theorem examples_ofEvents {events : List Event} (h : Nested events) (tag : String) :
    (Node.ofEvents events).examples tag = scan tag events := by
  obtain ⟨nodes, hadds, hexamples⟩ := h.examples_eq tag
  rw [hadds.ofEvents, Node.examples, hexamples]

def quotedExample : List Event :=
  within .blockQuote
      (.opensCode (some "lisp x") :: ["(+ 2 2)\n"].map .text ++ [.closesCode] ++ [.content] ++
        (.opensCode none :: ["4", "\n"].map .text ++ [.closesCode])) ++
    (.opensCode (some "lisp") :: ["(foo)\n"].map .text ++ [.closesCode] ++ [.rule] ++
      (.opensCode none :: ["FOO\n"].map .text ++ [.closesCode]))

theorem examples_ofEvents_quotedExample : Nested quotedExample ∧
    (Node.ofEvents quotedExample).examples "lisp" =
      [⟨"(+ 2 2)\n", some "4\n"⟩, ⟨"(foo)\n", none⟩] := by
  have hnested : Nested quotedExample :=
    .append
      (.within .blockQuote
        (.append (.append (.code (some "lisp x") ["(+ 2 2)\n"]) .content) (.code none ["4", "\n"])))
      (.append (.append (.code (some "lisp") ["(foo)\n"]) .rule) (.code none ["FOO\n"]))
  refine ⟨hnested, ?_⟩
  rw [examples_ofEvents hnested]
  decide

/-! ## Documents -/

theorem Nested.flatMap {α : Type} {f : α → List Event} (h : ∀ a, Nested (f a)) (l : List α) :
    Nested (l.flatMap f) := by
  induction l with
  | nil => exact .nil
  | cons a rest ih => exact .append (h a) ih

theorem Nested.contents {α : Type} (l : List α) : Nested (l.map fun _ => .content) := by
  induction l with
  | nil => exact .nil
  | cons a rest ih => exact .append .content ih

mutual

theorem Inline.nested : (i : Inline) → Nested i.events
  | .text s => .text (String.ofList s)
  | .content => .content
  | .container tag children => .within tag (inlineEvents_nested children)

theorem inlineEvents_nested : (content : List Inline) → Nested (inlineEvents content)
  | [] => .nil
  | i :: rest => .append i.nested (inlineEvents_nested rest)

end

theorem cellEvents_nested (defs : Definitions) (cells : List RunningText) :
    Nested (cellEvents defs cells) := by
  have hcell (cell : RunningText) : Nested (within .tableCell (cell.events defs)) :=
    .within .tableCell (inlineEvents_nested (cell.inline defs))
  exact .flatMap hcell cells

mutual

theorem Block.nested (defs : Definitions) (tight : Bool) :
    (b : Block) → Nested (b.events defs tight)
  | .paragraph text => by
    rw [Block.events]
    split
    · exact inlineEvents_nested (text.inline defs)
    · exact .within .paragraph (inlineEvents_nested (text.inline defs))
  | .heading text => .within .heading (inlineEvents_nested (text.inline defs))
  | .code info lines => .code info lines
  | .html lines => .within .htmlBlock (.contents lines)
  | .rule => .rule
  | .table head rows =>
    have hrows := Nested.flatMap (fun row => .within .tableRow (cellEvents_nested defs row)) rows
    .within .table (.append (.within .tableHead (cellEvents_nested defs head)) hrows)
  | .task => .content
  | .quote blocks => .within .blockQuote (blockEvents_nested defs false blocks)
  | .list tight items => .within .list (blockEvents_nested defs tight items)
  | .item blocks => .within .item (blockEvents_nested defs tight blocks)
  | .footnote blocks => .within .footnote (blockEvents_nested defs false blocks)

theorem blockEvents_nested (defs : Definitions) (tight : Bool) :
    (blocks : List Block) → Nested (blockEvents defs tight blocks)
  | [] => .nil
  | b :: rest => .append (b.nested defs tight) (blockEvents_nested defs tight rest)

end

/-- The examples of any document are found in one pass over its events. -/
theorem examples_ofMarkdown (source tag : String) :
    (Node.ofMarkdown source).examples tag = scan tag (parse source) := by
  have hparse : parse source =
      blockEvents (reading source).definitions false (reading source).finish := rfl
  obtain ⟨nodes, hadds, hexamples⟩ := (blockEvents_nested (reading source).definitions false
    (reading source).finish).examples_eq tag
  rw [Node.ofMarkdown, hparse, hadds.ofEvents, Node.examples, hexamples]

end Markdown
end LiveDoc
