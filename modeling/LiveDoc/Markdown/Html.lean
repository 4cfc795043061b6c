/-
Raw HTML: the tags that stand in running text and the lines that start and end a
block of HTML.

A tag may run over several lines, which then carry the marks of the containers
around it.  `marks?` says how many characters of marks a line starts with; it is
`none` where a tag has to end on the line it starts on.
-/
import LiveDoc.Markdown.Line

namespace LiveDoc
namespace Markdown
namespace Html

/-- How many characters of container marks the line that a text starts with carries,
if a tag may go on there at all. -/
abbrev Marks := Option (List Char → Nat)

/-- The text behind a line end and the marks on the next line, `none` if a tag cannot
go on there. -/
def nextLine? (marks? : Marks) (s : List Char) : Option (List Char) :=
  match lineEnd? s, marks? with
  | some (n + 1), some marks =>
    let next := s.drop (n + 1)
    some (next.drop (marks next))
  | _, _ => none

/-- Skips white space and line ends.  `fuel` bounds the number of steps. -/
def skipSpace? (marks? : Marks) : Nat → List Char → Option (List Char)
  | 0, s => some s
  | _, [] => some []
  | fuel + 1, c :: rest =>
    if c = '\n' ∨ c = '\r' then
      (nextLine? marks? (c :: rest)).bind (skipSpace? marks? fuel)
    else if isInlineSpace c then skipSpace? marks? fuel rest
    else some (c :: rest)

def quotedValue? (marks? : Marks) (quote : Char) : Nat → List Char → Option (List Char)
  | 0, _ => none
  | _, [] => none
  | fuel + 1, c :: rest =>
    if c = quote then some rest
    else if c = '\n' ∨ c = '\r' then
      (nextLine? marks? (c :: rest)).bind (quotedValue? marks? quote fuel)
    else quotedValue? marks? quote fuel rest

/-- The characters that an attribute value without quotation marks cannot have. -/
def endsValue (c : Char) : Bool :=
  c == ' ' || c == '=' || c == '>' || c == '<' || c == '\x60' || c == '\n' || c == '\r' ||
    c == '"' || c == '\''

def value? (marks? : Marks) : List Char → Option (List Char)
  | [] => none
  | c :: rest =>
    if c = '"' ∨ c = '\'' then quotedValue? marks? c (rest.length + 1) rest
    else if endsValue c then none
    else some ((c :: rest).dropWhile fun d => !endsValue d)

def attributeName? : List Char → Option (List Char)
  | [] => none
  | c :: rest =>
    if c.isAlpha || c == '_' || c == ':' then
      some (rest.dropWhile fun d =>
        d.isAlphanum || d == '_' || d == '.' || d == ':' || d == '-')
    else none

/-- The text behind an attribute.  White space that no value follows stays. -/
def attribute? (marks? : Marks) (s : List Char) : Option (List Char) := do
  let afterName ← attributeName? s
  let afterSpace ← skipSpace? marks? afterName.length afterName
  match afterSpace with
  | '=' :: rest =>
    let value ← skipSpace? marks? rest.length rest
    value? marks? value
  | _ => some afterName

/-- The text behind the attributes of a tag, each preceded by white space. -/
def attributes? (marks? : Marks) : Nat → List Char → Option (List Char)
  | 0, _ => none
  | fuel + 1, s => do
    let s' ← skipSpace? marks? s.length s
    match s' with
    | [] => none
    | '/' :: _ => some s'
    | '>' :: _ => some s'
    | _ =>
      if s'.length = s.length then none
      else
        let behind ← attribute? marks? s'
        attributes? marks? fuel behind

/-- The text behind the opening or closing tag whose angle bracket precedes `s`. -/
def tag? (marks? : Marks) (s : List Char) : Option (List Char) :=
  let (closing, s) := match s with
    | '/' :: rest => (true, rest)
    | s => (false, s)
  match s with
  | [] => none
  | c :: rest =>
    if c.isAlpha then do
      let behindName := rest.dropWhile fun d => d.isAlphanum || d == '-'
      let behind ←
        if closing then some behindName
        else attributes? marks? (behindName.length + 1) behindName
      let s := behind.dropWhile isInlineSpace
      let s := match closing, s with
        | false, '/' :: rest => rest
        | _, s => s
      match s with
      | '>' :: rest => some rest
      | _ => none
    else none

def behind? (mark : List Char) : List Char → Option (List Char)
  | [] => if mark.isEmpty then some [] else none
  | c :: rest =>
    if mark.isPrefixOf (c :: rest) then some ((c :: rest).drop mark.length)
    else behind? mark rest

/-- The text behind a comment, declaration or character data section, whose angle bracket
and exclamation mark precede `s`. -/
def declaration? : List Char → Option (List Char)
  | '-' :: '-' :: '>' :: rest => some rest
  | '-' :: '-' :: '-' :: '>' :: rest => some rest
  | '-' :: '-' :: rest => behind? ['-', '-', '>'] rest
  | '[' :: 'C' :: 'D' :: 'A' :: 'T' :: 'A' :: '[' :: rest =>
    let s := rest.dropWhile (· != ']')
    match s, s.dropWhile (· == ']') with
    | ']' :: _, '>' :: behind => some behind
    | _, _ => none
  | c :: rest => if c.isAlpha then behind? ['>'] rest else none
  | [] => none

/-- The text behind the raw HTML in running text whose angle bracket precedes `s`. -/
def inline? (marks : List Char → Nat) : List Char → Option (List Char)
  | '!' :: rest => declaration? rest
  | '?' :: rest => behind? ['?', '>'] rest
  | s => tag? (some marks) s

/-! ## Blocks of HTML -/

def blockElements : List String :=
  ["address", "article", "aside", "base", "basefont", "blockquote", "body", "caption",
   "center", "col", "colgroup", "dd", "details", "dialog", "dir", "div", "dl", "dt",
   "fieldset", "figcaption", "figure", "footer", "form", "frame", "frameset", "h1", "h2",
   "h3", "h4", "h5", "h6", "head", "header", "hr", "html", "iframe", "legend", "li", "link",
   "main", "menu", "menuitem", "nav", "noframes", "ol", "optgroup", "option", "p", "param",
   "search", "section", "summary", "table", "tbody", "td", "tfoot", "th", "thead", "title",
   "tr", "track", "ul"]

/-- The elements whose content is raw, so that a block of them ends at their closing tag. -/
def rawElements : List String := ["pre", "style", "script", "textarea"]

def lowerCase (s : List Char) : List Char := s.map Char.toLower

def startsRaw (name : String) (s : List Char) : Bool :=
  let n := name.toList.length
  lowerCase (s.take n) == name.toList && (s.drop n).head?.all fun c => isAsciiSpace c || c == '>'

/-- The text at which a block of HTML ends that starts with raw content, a comment, a
processing instruction, character data or a declaration, and whose angle bracket
precedes `s`. -/
def endMark? (s : List Char) : Option (List Char) :=
  match rawElements.find? (startsRaw · s) with
  | some name => some (['<', '/'] ++ name.toList ++ ['>'])
  | none =>
    if "!--".toList.isPrefixOf s then some "-->".toList
    else if "?".toList.isPrefixOf s then some "?>".toList
    else if "![CDATA[".toList.isPrefixOf s then some "]]>".toList
    else match s with
      | '!' :: c :: _ => if c.isAlpha then some ['>'] else none
      | _ => none

def startsBlockElement (s : List Char) : Bool :=
  let s := match s with
    | '/' :: rest => rest
    | s => s
  let name := s.takeWhile Char.isAlphanum
  blockElements.contains (String.ofList (lowerCase name)) &&
    match s.drop name.length with
    | [] => true
    | '/' :: '>' :: _ => true
    | c :: _ => c == ' ' || c == '\t' || c == '\r' || c == '\n' || c == '>'

/-- Is the rest of the line a single complete tag, whose angle bracket precedes `s`? -/
def isTagLine (s : List Char) : Bool :=
  match tag? none s with
  | some behind => (blankLine? behind).isSome
  | none => false

def contains (mark s : List Char) : Bool := (behind? mark s).isSome

end Html
end Markdown
end LiveDoc
