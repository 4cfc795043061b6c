/-
Outlines and the events that they are flattened to.

Many sequences of events stand for one outline: the text of a code block may come in pieces, a
fence may have more words behind the tag, a container without content may be a thematic break,
and outside code blocks there may be text and other content anywhere.  The builder takes all of
them to the same outline.

The proof goes along the flattening.  Each part of it adds its nodes to the container that is
open and leaves everything around it alone, which is what `Adds` says.
-/
import Mathlib.Data.List.TakeWhile
import LiveDoc.Proofs.Outline.Assembly

namespace LiveDoc

mutual

/-- A node without blanks in which no tag of a code block has white space. -/
def Node.Plain : Node → Prop
  | .code tag _ => ∀ c ∈ tag.toList, isBlank c = false
  | .blank => False
  | .container children => AllPlain children

def AllPlain : List Node → Prop
  | [] => True
  | node :: rest => node.Plain ∧ AllPlain rest

end

namespace Builder

open Markdown (Event Tag)

/-- What can stand behind the fence of a code block with this tag: the tag as the first word, or
white space only if it is empty.  An indented block has no tag. -/
inductive Labels : String → Option String → Prop
  | indented : Labels "" none
  | fenced (before tag behind : List Char) (hbefore : ∀ c ∈ before, isBlank c = true)
      (hbehind : ∀ c ∈ behind.head?, isBlank c = true)
      (hempty : tag = [] → ∀ c ∈ behind, isBlank c = true) :
      Labels (String.ofList tag) (some (String.ofList (before ++ tag ++ behind)))

/-- The events stand for these nodes, one behind the other. -/
inductive Flattening : List Node → List Event → Prop
  | nil : Flattening [] []
  | text (s : String) {nodes : List Node} {events : List Event} (h : Flattening nodes events) :
      Flattening nodes (.text s :: events)
  | content {nodes : List Node} {events : List Event} (h : Flattening nodes events) :
      Flattening nodes (.content :: events)
  | rule {nodes : List Node} {events : List Event} (h : Flattening nodes events) :
      Flattening (.container [] :: nodes) (.rule :: events)
  | container (opening closing : Tag) {children nodes : List Node} {inside events : List Event}
      (hinside : Flattening children inside) (h : Flattening nodes events) :
      Flattening (.container children :: nodes)
        (.opens opening :: inside ++ .closes closing :: events)
  | code {tag : String} {info : Option String} (hinfo : Labels tag info) (pieces : List String)
      {nodes : List Node} {events : List Event} (h : Flattening nodes events) :
      Flattening (.code tag (String.join pieces) :: nodes)
        (.opensCode info :: pieces.map .text ++ .closesCode :: events)

theorem firstWord_of_tag {before tag behind : List Char} (htag : ∀ c ∈ tag, isBlank c = false)
    (hbefore : ∀ c ∈ before, isBlank c = true) (hbehind : ∀ c ∈ behind.head?, isBlank c = true)
    (hempty : tag = [] → ∀ c ∈ behind, isBlank c = true) :
    firstWord (before ++ tag ++ behind) = tag := by
  rw [firstWord, List.append_assoc, List.dropWhile_append_of_pos hbefore]
  cases tag with
  | nil =>
    rw [List.nil_append, List.dropWhile_eq_nil_iff.mpr (hempty rfl)]
    rfl
  | cons c rest =>
    have hfirst : (c :: rest ++ behind).dropWhile isBlank = c :: rest ++ behind :=
      List.dropWhile_cons_of_neg (by simp [htag c List.mem_cons_self])
    rw [hfirst, List.takeWhile_append_of_pos (by simpa using htag)]
    cases behind with
    | nil => simp
    | cons d behind =>
      rw [List.takeWhile_cons_of_neg (by simp [hbehind d rfl]), List.append_nil]

theorem Labels.codeTag_eq {tag : String} {info : Option String} (h : Labels tag info)
    (htag : ∀ c ∈ tag.toList, isBlank c = false) : codeTag info = tag := by
  cases h with
  | indented => rfl
  | fenced before tag behind hbefore hbehind hempty =>
    rw [String.toList_ofList] at htag
    show String.ofList (firstWord (String.ofList (before ++ tag ++ behind)).toList) = _
    rw [String.toList_ofList, firstWord_of_tag htag hbefore hbehind hempty]

theorem Flattening.adds {nodes : List Node} {events : List Event} (h : Flattening nodes events)
    (hplain : AllPlain nodes) : Adds events nodes := by
  induction h with
  | nil => exact Adds.nil
  | text s h ih => exact (Adds.text s).append (ih hplain)
  | content h ih => exact Adds.content.append (ih hplain)
  | rule h ih => exact Adds.rule.append (ih hplain.2)
  | container opening closing hinside h ihinside ih =>
    have hwhole := ((ihinside hplain.1).enclosed opening closing).append (ih hplain.2)
    simpa using hwhole
  | @code tag info hinfo pieces nodes events h ih =>
    have hwhole := (Adds.code info pieces).append (ih hplain.2)
    rw [hinfo.codeTag_eq hplain.1] at hwhole
    simpa using hwhole

mutual

theorem exists_flattening : (nodes : List Node) → AllPlain nodes →
    ∃ events, Flattening nodes events
  | [], _ => ⟨[], .nil⟩
  | node :: rest, h => by
    obtain ⟨events, hevents⟩ := exists_flattening rest h.2
    exact exists_flattening_cons node h.1 hevents

theorem exists_flattening_cons : (node : Node) → node.Plain → ∀ {rest : List Node}
    {events : List Event}, Flattening rest events → ∃ events', Flattening (node :: rest) events'
  | .code tag text, _, _, _, hrest => by
    have hlabels := Labels.fenced [] tag.toList [] nofun nofun nofun
    rw [String.ofList_toList] at hlabels
    have htext : String.join [text] = text := by simp
    exact ⟨_, htext ▸ Flattening.code hlabels [text] hrest⟩
  | .blank, h, _, _, _ => h.elim
  | .container children, h, _, _, hrest => by
    obtain ⟨inside, hinside⟩ := exists_flattening children h
    exact ⟨_, .container .blockQuote .blockQuote hinside hrest⟩

end

/-- An outline without blanks, in which no tag has white space, can be flattened to events, and
whatever way that is done, the builder makes the same outline of them again. -/
theorem ofEvents_flattening {children : List Node} (hplain : AllPlain children) :
    (∃ events, Flattening children events) ∧
      ∀ events, Flattening children events → Node.ofEvents events = .container children :=
  ⟨exists_flattening children hplain, fun _ h => (h.adds hplain).ofEvents⟩

/-- A quote with an example and its output, and a thematic break behind it. -/
def quoteAndRule : List Node :=
  [.container [.code "lisp" "(foo)\n", .code "" "FOO\n"], .container []]

/-- The same with other content in it, and with the example in two pieces. -/
def scatteredEvents : List Event :=
  [.text "see", .opens .blockQuote, .opensCode (some " lisp\tno-run"), .text "(fo", .text "o)\n",
    .closesCode, .content, .opensCode none, .text "FOO\n", .closesCode, .text "so",
    .closes .blockQuote, .content, .rule]

theorem ofEvents_flattening_scattered :
    AllPlain quoteAndRule ∧ Flattening quoteAndRule scatteredEvents ∧
      Node.ofEvents scatteredEvents = .container quoteAndRule := by
  have hplain : AllPlain quoteAndRule := by
    simp [quoteAndRule, AllPlain, Node.Plain, isBlank]
  have hlisp : Labels "lisp" (some " lisp\tno-run") :=
    .fenced [' '] "lisp".toList "\tno-run".toList (by simp [isBlank])
      (by rintro c ⟨⟩; rfl) nofun
  have hexample := Flattening.code hlisp ["(fo", "o)\n"]
    (.content (.code .indented ["FOO\n"] (.text "so" .nil)))
  have hevents : Flattening quoteAndRule scatteredEvents :=
    .text "see" (.container .blockQuote .blockQuote hexample (.content (.rule .nil)))
  exact ⟨hplain, hevents, (ofEvents_flattening hplain).2 scatteredEvents hevents⟩

end Builder
end LiveDoc
