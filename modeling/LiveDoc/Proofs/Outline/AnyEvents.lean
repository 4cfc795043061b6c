/-
Outlines of events in any order.

The builder is made for events in which all that opens is closed, but it can be given any.
Whatever it is given, the document stays at the bottom of its stack, and what has been added
to the document stays there.  Of the code blocks exactly those come into the outline that an
event ends, each with the tag of the latest start and with the text since then: neither a
container that is closed too often nor one that is never closed takes any with it.

Both follow the stack event by event.  `blocksIn` lists the code blocks on a stack from the
document inwards, and only the end of a code block changes this list.
-/
import Mathlib.Data.List.Forall2
import Mathlib.Data.List.Induction
import LiveDoc.Proofs.Outline.Codes

namespace LiveDoc

namespace Builder

open Markdown (Event)

/-! ## Code blocks that have begun and ended -/

def text? : Event → Option String
  | .text s => some s
  | _ => none

/-- The latest start of a code block among these events has no end behind it.  The code block
has the tag of this start, and the text that has come since. -/
def Begun (events : List Event) (tag text : String) : Prop :=
  ∃ earlier info since, events = earlier ++ .opensCode info :: since ∧
    (∀ e ∈ since, e ≠ .closesCode ∧ ∀ info', e ≠ .opensCode info') ∧
    tag = codeTag info ∧ text = String.join (since.filterMap text?)

/-- The event with this number ends a code block that has begun. -/
def EndsAt (events : List Event) (i : Nat) (tag text : String) : Prop :=
  events[i]? = some .closesCode ∧ Begun (events.take i) tag text

theorem Begun.concat {events : List Event} {tag text : String} (h : Begun events tag text)
    (e : Event) (hcloses : e ≠ .closesCode) (hopens : ∀ info, e ≠ .opensCode info) :
    Begun (events ++ [e]) tag (text ++ (text? e).getD "") := by
  obtain ⟨earlier, info, since, rfl, hsince, rfl, rfl⟩ := h
  refine ⟨earlier, info, since ++ [e], by simp, ?_, rfl, ?_⟩
  · intro e' he'
    rcases List.mem_append.mp he' with he' | he'
    · exact hsince e' he'
    · rw [List.mem_singleton.mp he']
      exact ⟨hcloses, hopens⟩
  · cases htext : text? e <;> simp [htext, String.join_append]

/-- Between two starts or ends of code blocks the builder only adds text to the open one. -/
theorem code_since {since : List Event}
    (h : ∀ e ∈ since, e ≠ .closesCode ∧ ∀ info, e ≠ .opensCode info) (b : Builder) :
    (since.foldl push b).code =
      b.code.map fun (tag, text) => (tag, text ++ String.join (since.filterMap text?)) := by
  induction since generalizing b with
  | nil => cases hcode : b.code <;> simp [hcode]
  | cons e rest ih =>
    have hrest := ih (fun e' he' => h e' (List.mem_cons_of_mem e he')) (b.push e)
    obtain ⟨hcloses, hopens⟩ := h e List.mem_cons_self
    rw [List.foldl_cons, hrest]
    cases e with
    | opensCode info => exact absurd rfl (hopens info)
    | closesCode => exact absurd rfl hcloses
    | text s => cases hcode : b.code <;> simp [push, text?, hcode, String.append_assoc]
    | _ => rfl

theorem begun_of_code {events : List Event} {tag text : String}
    (h : (events.foldl push empty).code = some (tag, text)) : Begun events tag text := by
  induction events using List.reverseRecOn generalizing text with
  | nil => cases h
  | append_singleton events e ih =>
    rw [List.foldl_append, List.foldl_cons, List.foldl_nil] at h
    cases e with
    | opensCode info =>
      obtain ⟨rfl, rfl⟩ := Prod.mk.inj (Option.some.inj h)
      exact ⟨events, info, [], rfl, by simp, rfl, rfl⟩
    | closesCode =>
      rw [push] at h
      split at h
      · cases h
      · next hnone => cases hnone.symm.trans h
    | text s =>
      obtain ⟨⟨tag', text'⟩, hcode, heq⟩ := Option.map_eq_some_iff.mp h
      obtain ⟨rfl, rfl⟩ := Prod.mk.inj heq
      exact (ih hcode).concat (.text s) (by simp) (by simp)
    | opens t => simpa [text?] using (ih h).concat (.opens t) (by simp) (by simp)
    | closes t => simpa [text?] using (ih h).concat (.closes t) (by simp) (by simp)
    | rule => simpa [text?] using (ih h).concat .rule (by simp) (by simp)
    | content => simpa [text?] using (ih h).concat .content (by simp) (by simp)

/-- What the builder knows of an open code block is what the events say of it. -/
theorem code_eq_some_iff {events : List Event} {tag text : String} :
    (events.foldl push empty).code = some (tag, text) ↔ Begun events tag text := by
  refine ⟨begun_of_code, ?_⟩
  rintro ⟨earlier, info, since, rfl, hsince, rfl, rfl⟩
  rw [List.foldl_append, List.foldl_cons, code_since hsince]
  simp [push]

/-! ## The code blocks on the stack -/

def blocksIn : List (List Node) → List (String × String)
  | [] => []
  | level :: outer => blocksIn outer ++ blocksAmong level

theorem blocksIn_addNode (node : Node) (levels : List (List Node)) :
    blocksIn (addNode node levels) = blocksIn levels ++ node.blocks := by
  cases levels with
  | nil => simp [addNode, blocksIn, blocksAmong]
  | cons level outer => simp [addNode, blocksIn, blocksAmong, blocksAmong_append]

theorem blocksIn_closeLevel (levels : List (List Node)) :
    blocksIn (closeLevel levels) = blocksIn levels := by
  match levels with
  | [] => rfl
  | [_] => rfl
  | children :: level :: outer =>
    rw [closeLevel, blocksIn_addNode]
    rfl

theorem blocks_closeAll (children : List Node) (levels : List (List Node)) :
    (closeAll children levels).blocks = blocksIn levels ++ blocksAmong children := by
  induction levels generalizing children with
  | nil => rfl
  | cons level outer ih =>
    rw [closeAll, ih, blocksAmong_append, blocksIn, List.append_assoc]
    simp [blocksAmong, Node.blocks]

theorem blocks_finish (b : Builder) : b.finish.blocks = blocksIn b.levels := by
  rw [finish]
  split
  · next hlevels => rw [hlevels]; rfl
  · next children outer hlevels => rw [hlevels, blocks_closeAll, blocksIn]

/-- One event adds a code block if it ends one, and else it changes the list in no way. -/
theorem blocksIn_push (b : Builder) (e : Event) :
    blocksIn (b.push e).levels =
      blocksIn b.levels ++ if e = .closesCode then b.code.toList else [] := by
  cases e with
  | closesCode =>
    rw [push, if_pos rfl]
    cases hcode : b.code with
    | none => exact (List.append_nil _).symm
    | some code =>
      show blocksIn (addNode (.code code.1 code.2) b.levels) = _
      rw [blocksIn_addNode]
      rfl
  | opens tag => simp [push, blocksIn, blocksAmong]
  | closes tag => simp [push, blocksIn_closeLevel]
  | rule => simp [push, blocksIn_addNode, Node.blocks, blocksAmong]
  | _ => simp [push]

/-! ## The bottom of the stack -/

/-- The document is at the bottom of the stack and begins with these nodes. -/
def Bottom (root : List Node) (levels : List (List Node)) : Prop :=
  ∃ inner more, levels = inner ++ [root ++ more]

theorem Bottom.addNode {root : List Node} {levels : List (List Node)} (h : Bottom root levels)
    (node : Node) : Bottom root (addNode node levels) := by
  obtain ⟨inner, more, rfl⟩ := h
  cases inner with
  | nil => exact ⟨[], more ++ [node], by simp [Builder.addNode]⟩
  | cons level inner => exact ⟨(level ++ [node]) :: inner, more, rfl⟩

theorem Bottom.closeLevel {root : List Node} {levels : List (List Node)} (h : Bottom root levels) :
    Bottom root (closeLevel levels) := by
  obtain ⟨inner, more, rfl⟩ := h
  match inner with
  | [] => exact ⟨[], more, rfl⟩
  | [children] => exact Bottom.addNode ⟨[], more, rfl⟩ (.container children)
  | children :: level :: inner =>
    exact Bottom.addNode ⟨level :: inner, more, rfl⟩ (.container children)

theorem Bottom.push {root : List Node} {b : Builder} (h : Bottom root b.levels) (e : Event) :
    Bottom root (b.push e).levels := by
  cases e with
  | closesCode =>
    rw [Builder.push]
    split
    · exact h.addNode _
    · exact h
  | opens tag =>
    obtain ⟨inner, more, heq⟩ := h
    exact ⟨[] :: inner, more, congrArg ([] :: ·) heq⟩
  | closes tag => exact h.closeLevel
  | rule => exact h.addNode _
  | _ => exact h

theorem Bottom.foldl {root : List Node} {b : Builder} (h : Bottom root b.levels)
    (events : List Event) : Bottom root (events.foldl Builder.push b).levels := by
  induction events generalizing b with
  | nil => exact h
  | cons e rest ih => exact ih (h.push e)

theorem Bottom.closeAll {root children : List Node} {outer : List (List Node)}
    (h : Bottom root (children :: outer)) :
    ∃ more, closeAll children outer = .container (root ++ more) := by
  induction outer generalizing children with
  | nil =>
    obtain ⟨inner, more, heq⟩ := h
    cases inner with
    | nil => exact ⟨more, congrArg Node.container (List.cons.inj heq).1⟩
    | cons level inner => simp at heq
  | cons level outer ih =>
    obtain ⟨inner, more, heq⟩ := h
    cases inner with
    | nil => simp at heq
    | cons level' inner =>
      have hbelow : Bottom root (level :: outer) := ⟨inner, more, (List.cons.inj heq).2⟩
      exact ih (hbelow.addNode (.container children))

theorem Bottom.finish {root : List Node} {b : Builder} (h : Bottom root b.levels) :
    ∃ more, b.finish = .container (root ++ more) := by
  rw [Builder.finish]
  split
  · next hlevels =>
    obtain ⟨inner, more, heq⟩ := h
    simp [hlevels] at heq
  · next children outer hlevels =>
    rw [hlevels] at h
    exact h.closeAll

/-! ## All events -/

/-- These are the numbers of the events that end a code block, each once and in order, and the
code blocks that they end. -/
structure Endings (events : List Event) (ends : List Nat) (codes : List (String × String)) :
    Prop where
  sorted : ends.Pairwise (· < ·)
  mem_iff : ∀ i, i ∈ ends ↔ ∃ tag text, EndsAt events i tag text
  codes : List.Forall₂ (fun i code => EndsAt events i code.1 code.2) ends codes

theorem EndsAt.lt {events : List Event} {i : Nat} {tag text : String}
    (h : EndsAt events i tag text) : i < events.length :=
  (List.getElem?_eq_some_iff.mp h.1).1

theorem endsAt_concat_of_lt {events : List Event} {i : Nat} (hi : i < events.length) (e : Event)
    (tag text : String) : EndsAt (events ++ [e]) i tag text ↔ EndsAt events i tag text := by
  rw [EndsAt, EndsAt, List.getElem?_append_left hi, List.take_append_of_le_length (by omega)]

theorem endsAt_last (events : List Event) (e : Event) (tag text : String) :
    EndsAt (events ++ [e]) events.length tag text ↔ e = .closesCode ∧ Begun events tag text := by
  rw [EndsAt, List.getElem?_concat_length, Option.some_inj, List.take_left]

namespace Endings

variable {events : List Event} {ends : List Nat} {codes : List (String × String)}

theorem lt (h : Endings events ends codes) {i : Nat} (hi : i ∈ ends) : i < events.length := by
  obtain ⟨tag, text, hat⟩ := (h.mem_iff i).mp hi
  exact hat.lt

/-- An end among these events and one more is one of the earlier ends, or it is this event. -/
theorem mem_concat (h : Endings events ends codes) (e : Event) (i : Nat) :
    (∃ tag text, EndsAt (events ++ [e]) i tag text) ↔
      i ∈ ends ∨ i = events.length ∧ e = .closesCode ∧ ∃ tag text, Begun events tag text := by
  by_cases hi : i < events.length
  · simp [endsAt_concat_of_lt hi, h.mem_iff i, Nat.ne_of_lt hi]
  · have hnot : i ∉ ends := fun hmem => hi (h.lt hmem)
    by_cases heq : i = events.length
    · subst heq
      simp [endsAt_last, hnot]
    · have hlater : ∀ tag text, ¬ EndsAt (events ++ [e]) i tag text := by
        intro tag text hat
        have hlt := hat.lt
        rw [List.length_append, List.length_singleton] at hlt
        omega
      simp [hnot, heq, hlater]

theorem kept (h : Endings events ends codes) (e : Event) :
    List.Forall₂ (fun i code => EndsAt (events ++ [e]) i code.1 code.2) ends codes :=
  h.codes.imp fun _ _ hat => (endsAt_concat_of_lt hat.lt e _ _).mpr hat

theorem pass (h : Endings events ends codes) {e : Event}
    (hnone : ¬ (e = .closesCode ∧ ∃ tag text, Begun events tag text)) :
    Endings (events ++ [e]) ends codes := by
  refine ⟨h.sorted, fun i => ?_, h.kept e⟩
  rw [h.mem_concat]
  exact ⟨Or.inl, fun hmem => hmem.resolve_right fun hlast => hnone hlast.2⟩

theorem close (h : Endings events ends codes) {tag text : String} (hbegun : Begun events tag text) :
    Endings (events ++ [.closesCode]) (ends ++ [events.length]) (codes ++ [(tag, text)]) := by
  refine ⟨?_, fun i => ?_, ?_⟩
  · refine List.pairwise_append.mpr ⟨h.sorted, List.pairwise_singleton _ _, ?_⟩
    intro i hi j hj
    rw [List.mem_singleton.mp hj]
    exact h.lt hi
  · rw [h.mem_concat, List.mem_append, List.mem_singleton]
    exact or_congr_right ⟨fun heq => ⟨heq, rfl, tag, text, hbegun⟩, And.left⟩
  · have hat : EndsAt (events ++ [.closesCode]) events.length tag text :=
      (endsAt_last events _ tag text).mpr ⟨rfl, hbegun⟩
    exact List.rel_append (h.kept _) (.cons hat .nil)

end Endings

/-- The code blocks on the stack are those that the events have ended. -/
theorem exists_endings (events : List Event) :
    ∃ ends, Endings events ends (blocksIn (events.foldl push empty).levels) := by
  induction events using List.reverseRecOn with
  | nil => exact ⟨[], .nil, by simp [EndsAt], .nil⟩
  | append_singleton events e ih =>
    obtain ⟨ends, h⟩ := ih
    rw [List.foldl_append, List.foldl_cons, List.foldl_nil, blocksIn_push]
    by_cases hlast : e = .closesCode ∧ ∃ tag text, Begun events tag text
    · obtain ⟨rfl, tag, text, hbegun⟩ := hlast
      rw [if_pos rfl, code_eq_some_iff.mpr hbegun]
      exact ⟨_, h.close hbegun⟩
    · have hnothing :
          (if e = .closesCode then (events.foldl push empty).code.toList else []) = [] := by
        split
        · next hcloses =>
          rw [Option.toList_eq_nil_iff, Option.eq_none_iff_forall_ne_some]
          rintro ⟨tag, text⟩ hcode
          exact hlast ⟨hcloses, tag, text, code_eq_some_iff.mp hcode⟩
        · rfl
      rw [hnothing, List.append_nil]
      exact ⟨ends, h.pass hlast⟩

/-- Whatever the events are, balanced or not, the stack of the builder is never empty: the
document is at its bottom, and nothing is ever taken from it.  So a document comes out.  Its code
blocks are, each once and in order, those that an event ends, with the tag of the latest start
and the text since then. -/
theorem blocks_ofEvents (events : List Event) :
    (∀ before, before <+: events →
      ∃ inner root, (before.foldl push empty).levels = inner ++ [root] ∧
        ∃ more, Node.ofEvents events = .container (root ++ more)) ∧
    ∃ ends, Endings events ends (Node.ofEvents events).blocks := by
  constructor
  · rintro before ⟨after, rfl⟩
    have hbottom : Bottom [] (before.foldl push empty).levels := Bottom.foldl ⟨[], [], rfl⟩ before
    obtain ⟨inner, root, hlevels⟩ := hbottom
    have hroot : Bottom root (before.foldl push empty).levels :=
      ⟨inner, [], by rw [hlevels, List.append_nil, List.nil_append]⟩
    refine ⟨inner, root, hlevels, ?_⟩
    rw [Node.ofEvents, List.foldl_append]
    exact (hroot.foldl after).finish
  · rw [Node.ofEvents, blocks_finish]
    exact exists_endings events

/-- A code block that starts inside another takes its place, and a second end does nothing. -/
example : (Node.ofEvents [.closes .list, .opensCode none, .text "a", .opens .item,
    .opensCode (some "lisp"), .text "b", .closesCode, .closesCode, .opensCode none]).blocks =
      [("lisp", "b")] := by decide +kernel

end Builder
end LiveDoc
