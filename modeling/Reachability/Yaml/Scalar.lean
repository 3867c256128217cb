import Reachability.Yaml.Cursor

namespace Reachability.Yaml

/-- White space between the words of a scalar. -/
structure Gap where
  /-- The blanks, if no line break is among them. -/
  blanks : List Char := []
  /-- A line has ended. -/
  broken : Bool := false
  /-- The break of that line counts; it does not after a backslash. -/
  counted : Bool := false
  /-- The number of empty lines. -/
  empty : Nat := 0

namespace Gap

/-- The white space as it counts: one line break as a blank, and of more all but the first. -/
def text (g : Gap) : List Char :=
  if !g.broken then g.blanks
  else if g.counted && g.empty == 0 then [' ']
  else List.replicate g.empty '\n'

/-- Goes on over white space. A tab must not stand before column `margin` of a new line. -/
def extend? (margin : Nat) : Nat → Gap → Cursor → Option (Gap × Cursor)
  | 0, g, c => some (g, c)
  | fuel + 1, g, c =>
    if c.atBlank then
      if g.broken then
        if c.column < margin ∧ c.peek? = some '\t' then none else extend? margin fuel g c.skip
      else extend? margin fuel { g with blanks := g.blanks ++ c.peek?.toList } c.skip
    else if c.atBreak then
      let g := if g.broken then { g with empty := g.empty + 1 }
        else { g with blanks := [], broken := true, counted := true }
      extend? margin fuel g c.skipBreak
    else some (g, c)

end Gap

/-- The number of characters up to the end of a word in a plain scalar. -/
def wordLength (inFlow : Bool) : List Char → Nat
  | [] => 0
  | d :: rest =>
    if isBlank d || isBreak d then 0
    else if d == ':' && (atGap rest || (inFlow && rest.head?.any isFlow)) then 0
    else if inFlow && isFlow d then 0
    else wordLength inFlow rest + 1

/-- A plain scalar, of which `text` is read and `gap` follows it: the text, the place after it, and
whether that is on a new line. A line break between words counts as a blank. Outside of flow
collections the scalar ends at a line that starts before column `margin`. -/
def plain? (inFlow : Bool) (margin : Nat) :
    Nat → List Char → Gap → Cursor → Option (String × Cursor × Bool)
  | 0, _, _, _ => none
  | fuel + 1, text, gap, c =>
    if c.atDocumentMarker || c.peek? == some '#' then some (String.ofList text, c, gap.broken)
    else
      let n := wordLength inFlow c.rest
      let text := if n = 0 then text else text ++ gap.text ++ c.rest.take n
      let gap := if n = 0 then gap else {}
      let c := c.skipMany n
      if !c.atBlank && !c.atBreak then some (String.ofList text, c, gap.broken)
      else do
        let (gap, c) ← gap.extend? margin (c.rest.length + 1) c
        if !inFlow && c.column < margin then return (String.ofList text, c, gap.broken)
        plain? inFlow margin fuel text gap c

def hexValue? (c : Char) : Option Nat :=
  if c.isDigit then some (c.toNat - '0'.toNat)
  else if 'a' ≤ c ∧ c ≤ 'f' then some (c.toNat - 'a'.toNat + 10)
  else if 'A' ≤ c ∧ c ≤ 'F' then some (c.toNat - 'A'.toNat + 10)
  else none

/-- The character that a letter after a backslash stands for. -/
def shortEscape? : Char → Option Char
  | '0' => some (Char.ofNat 0)
  | 'a' => some '\x07'
  | 'b' => some '\x08'
  | 't' | '\t' => some '\t'
  | 'n' => some '\n'
  | 'v' => some '\x0b'
  | 'f' => some '\x0c'
  | 'r' => some '\r'
  | 'e' => some '\x1b'
  | ' ' => some ' '
  | '"' => some '"'
  | '/' => some '/'
  | '\\' => some '\\'
  | 'N' => some (Char.ofNat 0x85)
  | '_' => some (Char.ofNat 0xA0)
  | 'L' => some (Char.ofNat 0x2028)
  | 'P' => some (Char.ofNat 0x2029)
  | _ => none

/-- How many hexadecimal digits follow a letter after a backslash. -/
def escapeLength? : Char → Option Nat
  | 'x' => some 2
  | 'u' => some 4
  | 'U' => some 8
  | _ => none

/-- The character of an escape and the number of characters in it, from the letter after the
backslash on. -/
def escape? : List Char → Option (Char × Nat)
  | [] => none
  | d :: rest =>
    match escapeLength? d with
    | none => (shortEscape? d).map (·, 1)
    | some n => do
      let ds ← (rest.take n).mapM hexValue?
      let code := ds.foldl (fun n d => n * 16 + d) 0
      if ds.length = n ∧ code.isValidChar then some (Char.ofNat code, n + 1) else none

/-- A word of a quoted scalar: its text, the place after it, and whether a backslash ended its line
there. -/
def quotedWord? (quote : Char) : Nat → List Char → Cursor → Option (List Char × Cursor × Bool)
  | 0, _, _ => none
  | fuel + 1, text, c =>
    match c.rest with
    | [] => some (text, c, false)
    | d :: rest =>
      if isBlank d || isBreak d then some (text, c, false)
      else if d = quote then
        if quote = '\'' ∧ rest.head? = some '\'' then
          quotedWord? quote fuel (text ++ [d]) c.skip.skip
        else some (text, c, false)
      else if d = '\\' ∧ quote = '"' then
        if rest.head?.any isBreak then some (text, c.skip.skipBreak, true)
        else do
          let (e, n) ← escape? rest
          quotedWord? quote fuel (text ++ [e]) (c.skipMany (n + 1))
      else quotedWord? quote fuel (text ++ [d]) c.skip

/-- A quoted scalar after its opening quote, of which `text` is read. -/
def quoted? (quote : Char) : Nat → List Char → Cursor → Option (String × Cursor)
  | 0, _, _ => none
  | fuel + 1, text, c =>
    if c.atDocumentMarker || c.rest.isEmpty then none
    else do
      let (text, c, broken) ← quotedWord? quote (c.rest.length + 1) text c
      if c.peek? = some quote then return (String.ofList text, c.skip)
      let (gap, c) ← Gap.extend? 0 (c.rest.length + 1) { broken } c
      quoted? quote fuel (text ++ gap.text) c

/-- What becomes of the line breaks at the end of a block scalar. -/
inductive Chomping where
  | strip
  | clip
  | keep
deriving DecidableEq, Repr

def chomping? : Char → Option Chomping
  | '+' => some .keep
  | '-' => some .strip
  | _ => none

/-- An indentation of one to nine columns. -/
def indentation? (c : Char) : Option Nat :=
  if c.isDigit && c != '0' then some (c.toNat - '0'.toNat) else none

/-- The chomping and the indentation that follow the mark of a block scalar, in either order, and
the place after the line. -/
def blockHeader? (c : Cursor) : Option (Chomping × Option Nat × Cursor) := do
  let (chomping, indentation, c) ←
    match c.rest with
    | d :: rest =>
      match chomping? d with
      | some chomping =>
        match rest with
        | e :: _ =>
          if e = '0' then none
          else
            match indentation? e with
            | some n => some (chomping, some n, c.skip.skip)
            | none => some (chomping, none, c.skip)
        | [] => some (chomping, none, c.skip)
      | none =>
        if d = '0' then none
        else
          match indentation? d with
          | some n =>
            match rest.head?.bind chomping? with
            | some chomping => some (chomping, some n, c.skip.skip)
            | none => some (.clip, some n, c.skip)
          | none => some (.clip, none, c)
    | [] => some (.clip, none, c)
  let c := c.skipBlanks.skipComment
  if c.atLineEnd then return (chomping, indentation, c.skipBreak) else none

/-- Leaves out the indentation of lines, to column `indent` at most if it is known, and counts the
empty lines: their number, the furthest column, and the place of the first character. -/
def blockBreaks? (indent : Option Nat) :
    Nat → Nat → Nat → Cursor → Option (Nat × Nat × Cursor)
  | 0, _, _, _ => none
  | fuel + 1, empty, furthest, c =>
    let width :=
      match indent with
      | some n => min (n - c.column) (c.rest.takeWhile (· == ' ')).length
      | none => (c.rest.takeWhile (· == ' ')).length
    let c := c.skipMany width
    let furthest := max furthest c.column
    if indent.all (c.column < ·) ∧ c.peek? = some '\t' then none
    else if c.atBreak then blockBreaks? indent fuel (empty + 1) furthest c.skipBreak
    else some (empty, furthest, c)

/-- The lines of a block scalar from column `indent` of one on. Of the text before it, `broken` says
that a line break ends it, `empty` counts the empty lines after that, and `indented` says that its
last line starts with a blank. -/
def blockLines? (folded : Bool) (chomping : Chomping) (indent : Nat) :
    Nat → List Char → Bool → Nat → Bool → Cursor → Option (String × Cursor)
  | 0, _, _, _, _, _ => none
  | fuel + 1, text, broken, empty, indented, c =>
    if c.column = indent ∧ !c.rest.isEmpty then
      let blank := c.atBlank
      let between : List Char :=
        if folded && broken && !indented && !blank then if empty = 0 then [' '] else []
        else if broken then ['\n'] else []
      let line := c.rest.takeWhile fun d => !isBreak d
      let text := text ++ between ++ List.replicate empty '\n' ++ line
      let c := c.skipMany line.length
      if c.rest.isEmpty then some (String.ofList text, c)
      else do
        let c := c.skipBreak
        let (empty, _, c) ← blockBreaks? (some indent) (c.rest.length + 1) 0 0 c
        blockLines? folded chomping indent fuel text true empty blank c
    else
      let final := if broken && chomping != .strip then ['\n'] else []
      let more := if chomping = .keep then List.replicate empty '\n' else []
      some (String.ofList (text ++ final ++ more), c)

/-- A block scalar after its mark, within a collection whose indentation is `outer`. -/
def block? (folded : Bool) (outer : Int) (c : Cursor) : Option (String × Cursor) := do
  let (chomping, indentation, c) ← blockHeader? c
  let given := indentation.map fun n => if 0 ≤ outer then outer.toNat + n else n
  let (empty, furthest, c) ← blockBreaks? given (c.rest.length + 1) 0 0 c
  let indent := given.getD (max furthest (max (outer + 1).toNat 1))
  blockLines? folded chomping indent (c.rest.length + 1) [] false empty false c

end Reachability.Yaml
