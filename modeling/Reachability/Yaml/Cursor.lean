namespace Reachability.Yaml

/-- A place in a text: the characters from there on, and how far one has come. -/
structure Cursor where
  rest : List Char
  index : Nat := 0
  line : Nat := 0
  column : Nat := 0
deriving Repr

def isBlank (c : Char) : Bool := c == ' ' || c == '\t'
def isBreak (c : Char) : Bool := c == '\n' || c == '\r'

/-- The characters that make up flow collections. -/
def isFlow (c : Char) : Bool := c ∈ [',', '[', ']', '\x7b', '\x7d']

/-- The characters of anchors and of the names of tags and directives. -/
def isName (c : Char) : Bool := c.isAlphanum || c == '_' || c == '-'

/-- A text that starts with white space or is at its end. -/
def atGap : List Char → Bool
  | [] => true
  | c :: _ => isBlank c || isBreak c

namespace Cursor

/-- The place after the next character. -/
def skip (c : Cursor) : Cursor :=
  match c.rest with
  | [] => c
  | d :: rest =>
    if d = '\n' then ⟨rest, c.index + 1, c.line + 1, 0⟩
    else ⟨rest, c.index + 1, c.line, c.column + 1⟩

def skipMany : Nat → Cursor → Cursor
  | 0, c => c
  | n + 1, c => skipMany n c.skip

/-- The place after the characters that satisfy `p`. -/
def skipWhile (p : Char → Bool) (c : Cursor) : Cursor :=
  skipMany (c.rest.takeWhile p).length c

/-- The place after a line break, if there is one. -/
def skipBreak (c : Cursor) : Cursor :=
  match c.rest with
  | '\r' :: '\n' :: _ => c.skip.skip
  | d :: _ => if isBreak d then c.skip else c
  | [] => c

def peek? (c : Cursor) : Option Char := c.rest.head?

def atBlank (c : Cursor) : Bool := c.peek?.any isBlank
def atBreak (c : Cursor) : Bool := c.peek?.any isBreak

/-- At the end of a line or of the text. -/
def atLineEnd (c : Cursor) : Bool := c.rest.isEmpty || c.atBreak

def skipBlanks (c : Cursor) : Cursor := c.skipWhile isBlank

/-- The place after a comment, if one starts here. -/
def skipComment (c : Cursor) : Cursor :=
  if c.peek? = some '#' then c.skipWhile fun d => !isBreak d else c

/-- Three times this character at the start of a line, and white space after it: a line that starts
or ends a document. -/
def atMarker (d : Char) (c : Cursor) : Bool :=
  match c.rest with
  | x :: y :: z :: rest => c.column == 0 && x == d && y == d && z == d && atGap rest
  | _ => false

def atDocumentMarker (c : Cursor) : Bool := c.atMarker '-' || c.atMarker '.'

end Cursor

end Reachability.Yaml
