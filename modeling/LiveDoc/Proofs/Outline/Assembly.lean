/-
What events add to an outline, piece by piece.

Between code blocks the builder only ever adds to the container that is open.  So the
events of a piece of a document come to some nodes, whatever stands before the piece and
around it, and the nodes of a whole are read off its parts.
-/
import LiveDoc.Markdown.Block
import LiveDoc.Outline.Read

namespace LiveDoc
namespace Builder

open Markdown (Event Tag within)

/-- The events put these nodes behind the children of the open container, and nothing else. -/
def Adds (events : List Event) (nodes : List Node) : Prop :=
  ∀ children outer,
    events.foldl push ⟨children :: outer, none⟩ = ⟨(children ++ nodes) :: outer, none⟩

namespace Adds

variable {events events' : List Event} {nodes nodes' : List Node}

theorem nil : Adds [] [] := by
  intro children outer
  rw [List.append_nil]
  rfl

theorem append (h : Adds events nodes) (h' : Adds events' nodes') :
    Adds (events ++ events') (nodes ++ nodes') := by
  intro children outer
  rw [List.foldl_append, h, h', List.append_assoc]

theorem flatMap {α : Type} {f : α → List Event} {g : α → Node} (h : ∀ a, Adds (f a) [g a])
    (l : List α) : Adds (l.flatMap f) (l.map g) := by
  induction l with
  | nil => exact nil
  | cons a rest ih => exact (h a).append ih

theorem text (s : String) : Adds [.text s] [] := by
  intro children outer
  rw [List.append_nil]
  rfl

theorem content : Adds [.content] [] := by
  intro children outer
  rw [List.append_nil]
  rfl

theorem contents {α : Type} (l : List α) : Adds (l.map fun _ => .content) [] := by
  induction l with
  | nil => exact nil
  | cons a rest ih => exact content.append ih

theorem rule : Adds [.rule] [.container []] := fun _ _ => rfl

theorem enclosed (opening closing : Tag) (h : Adds events nodes) :
    Adds (.opens opening :: events ++ [.closes closing]) [.container nodes] := by
  intro children outer
  rw [List.cons_append, List.foldl_cons, List.foldl_append]
  have hinside := h [] (children :: outer)
  simp only [push, hinside]
  rfl

theorem within (tag : Tag) (h : Adds events nodes) :
    Adds (within tag events) [.container nodes] := h.enclosed tag tag

end Adds

/-! ## Code blocks -/

theorem foldl_push_text (levels : List (List Node)) (tag text : String) (pieces : List String) :
    (pieces.map Event.text).foldl push ⟨levels, some (tag, text)⟩ =
      ⟨levels, some (tag, pieces.foldl (· ++ ·) text)⟩ := by
  induction pieces generalizing text with
  | nil => rfl
  | cons piece rest ih => exact ih (text ++ piece)

theorem Adds.code (info : Option String) (pieces : List String) :
    Adds (.opensCode info :: pieces.map .text ++ [.closesCode])
      [.code (codeTag info) (String.join pieces)] := by
  intro children outer
  rw [List.cons_append, List.foldl_cons, List.foldl_append]
  have htext := foldl_push_text (children :: outer) (codeTag info) "" pieces
  simp only [push, htext]
  rfl

/-! ## Whole documents -/

/-- A document is one container around what its events add. -/
theorem Adds.ofEvents {events : List Event} {nodes : List Node} (h : Adds events nodes) :
    Node.ofEvents events = .container nodes := by
  rw [Node.ofEvents, empty, h]
  rfl

end Builder
end LiveDoc
