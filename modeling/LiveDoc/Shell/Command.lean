/-
Commands of the shell.
-/
import LiveDoc.Shell.Token

namespace LiveDoc
namespace Shell

/-- Where a descriptor leads.  The words are expanded when the command runs. -/
inductive Redirection where
  | readFrom (word : Text)
  | writeTo (word : Text)
  | appendTo (word : Text)
  /-- To where another descriptor leads, or nowhere if the word is a hyphen. -/
  | sameAs (word : Text)
  | readText (text : TextBelow)
deriving Repr, DecidableEq, Inhabited

structure Redirect where
  descriptor : Nat
  target : Redirection
deriving Repr, DecidableEq, Inhabited

inductive Command where
  | nothing
  /-- Assignments, then words, of which the first names what is run. -/
  | simple (line : Nat) (assignments : List (Text × Text)) (words : List Text)
      (redirects : List Redirect)
  | redirected (c : Command) (redirects : List Redirect)
  | sequence (first second : Command)
  | both (first second : Command)
  | either (first second : Command)
  | negated (c : Command)
  | pipe (source target : Command)
  | background (c : Command)
  | subshell (c : Command)
  | choice (condition yes no : Command)
  /-- Runs the body as long as the condition succeeds, or as long as it fails. -/
  | loop (whileTrue : Bool) (condition body : Command)
  /-- Runs the body for every word, or for every argument if no words are given. -/
  | each (name : Text) (words : Option (List Text)) (body : Command)
  | select (word : Text) (arms : List (List Text × Command))
  | function (name : Text) (body : Command)
deriving Inhabited

end Shell
end LiveDoc
