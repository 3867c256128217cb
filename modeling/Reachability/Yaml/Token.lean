import Reachability.Yaml.Scalar

namespace Reachability.Yaml

inductive Token where
  | directive
  | documentStart
  | documentEnd
  | sequenceStart
  | mappingStart
  | blockEnd
  | flowSequenceStart
  | flowSequenceEnd
  | flowMappingStart
  | flowMappingEnd
  | entry
  | comma
  | key
  | value
  | alias (name : String)
  | anchor (name : String)
  | tag (handle suffix : String)
  /-- A scalar, and whether it is written plainly. -/
  | scalar (plain : Bool) (text : String)
deriving DecidableEq, Repr

/-- A place where a key on one line may have started. A key is known as one only by the colon behind
it, so the place is kept, and the tokens that open the key are put there once its colon is found. -/
structure Candidate where
  index : Nat
  line : Nat
  column : Nat
  /-- The number of tokens before it. -/
  token : Nat
  /-- The text is malformed if this is no key. -/
  required : Bool

/-- How far a text is split into tokens. -/
structure Lexer where
  cursor : Cursor
  tokens : List Token := []
  /-- The column of the innermost block collection, and of those around it. -/
  indent : Int := -1
  outer : List Int := []
  /-- The number of flow collections that are open. -/
  depth : Nat := 0
  keyAllowed : Bool := true
  /-- The candidates in the innermost collection and in the flow collections around it. -/
  candidate : Option Candidate := none
  candidates : List (Option Candidate) := []
  /-- Where a quoted scalar ended; in flow collections a colon may follow it at once. -/
  quotedEnd : Option Nat := none

namespace Lexer

def push (x : Lexer) (t : Token) : Lexer := { x with tokens := x.tokens ++ [t] }

def insertAt (x : Lexer) (n : Nat) (t : Token) : Lexer :=
  { x with tokens := x.tokens.take n ++ t :: x.tokens.drop n }

def skip (x : Lexer) (n : Nat) : Lexer := { x with cursor := x.cursor.skipMany n }

def allowKey (x : Lexer) : Lexer := { x with keyAllowed := true }
def forbidKey (x : Lexer) : Lexer := { x with keyAllowed := false }

/-- Leaves out white space and comments before a token. A tab at the start of a line is no white
space. -/
def skipToToken : Nat → Lexer → Lexer
  | 0, x => x
  | fuel + 1, x =>
    match x.cursor.rest with
    | [] => x
    | c :: _ =>
      if c = ' ' ∨ (c = '\t' ∧ (0 < x.depth ∨ !x.keyAllowed)) then skipToToken fuel (x.skip 1)
      else if isBreak c then
        let x := { x with cursor := x.cursor.skipBreak }
        skipToToken fuel (if x.depth = 0 then x.allowKey else x)
      else if c = '#' then skipToToken fuel { x with cursor := x.cursor.skipComment }
      else x

/-- A key ends on its line and within 1024 characters. -/
def isStale (c : Cursor) (k : Candidate) : Bool := k.line < c.line || k.index + 1024 < c.index

def dropStale? (x : Lexer) : Option Lexer :=
  let live (k : Option Candidate) : Option (Option Candidate) :=
    match k with
    | some k =>
      if !isStale x.cursor k then some (some k) else if k.required then none else some none
    | none => some none
  do return { x with candidate := ← live x.candidate, candidates := ← x.candidates.mapM live }

/-- Gives up the candidate. -/
def dropCandidate? (x : Lexer) : Option Lexer :=
  if x.candidate.any (·.required) then none else some { x with candidate := none }

/-- Keeps the place as a candidate, if a key may start here. -/
def saveCandidate? (x : Lexer) : Option Lexer :=
  if x.keyAllowed then do
    let x ← x.dropCandidate?
    let c := x.cursor
    return { x with
      candidate := some
        { index := c.index
          line := c.line
          column := c.column
          token := x.tokens.length
          required := 0 < x.depth && x.indent == (c.column : Int) } }
  else some x

/-- Opens a block collection, if the column is further right than that of the innermost one. The
token goes to the end or to an earlier place. -/
def openAt (x : Lexer) (column : Nat) (place : Option Nat) (t : Token) : Lexer :=
  if 0 < x.depth ∨ (column : Int) ≤ x.indent then x
  else
    let x := { x with indent := column, outer := x.indent :: x.outer }
    match place with
    | some n => x.insertAt n t
    | none => x.push t

/-- Closes the block collections that lie further right than a column. -/
def closeTo (x : Lexer) (column : Int) : Lexer :=
  if 0 < x.depth then x
  else
    let closed := (x.indent :: x.outer).takeWhile (column < ·)
    let left := (x.indent :: x.outer).dropWhile (column < ·)
    { x with
      tokens := x.tokens ++ List.replicate closed.length .blockEnd
      indent := left.headD (-1)
      outer := left.tail }

/-- Closes everything, before a directive, a document marker or the end. -/
def closeAll? (x : Lexer) : Option Lexer := do return (← (x.closeTo (-1)).dropCandidate?).forbidKey

/-- The digits of a version in a directive. -/
def versionPart? (c : Cursor) : Option Cursor :=
  let n := (c.rest.takeWhile Char.isDigit).length
  if 1 ≤ n ∧ n ≤ 9 then some (c.skipMany n) else none

/-- The characters of a tag besides letters, digits, `-`, `_` and escapes. -/
def isTagMark (c : Char) : Bool := c ∈ ";/?:@&=+$,.!~*'()[]".toList

/-- A byte that a tag spells as a percent sign and two hexadecimal digits. -/
def byte? (c : Cursor) : Option (Nat × Cursor) :=
  match c.rest with
  | '%' :: a :: b :: _ => do return ((← hexValue? a) * 16 + (← hexValue? b), c.skipMany 3)
  | _ => none

/-- A character that a tag spells as the bytes of its encoding. -/
def encoded? (c : Cursor) : Option (Char × Cursor) := do
  let (first, c) ← byte? c
  let (count, start) ←
    if first < 0x80 then some (0, first)
    else if first / 32 = 6 then some (1, first % 32)
    else if first / 16 = 14 then some (2, first % 16)
    else if first / 8 = 30 then some (3, first % 8)
    else none
  let (code, c) ← (List.range count).foldlM (fun (code, c) _ => do
    let (b, c) ← byte? c
    if b / 64 = 2 then some (code * 64 + b % 64, c) else none) (start, c)
  if code.isValidChar then some (Char.ofNat code, c) else none

/-- The characters of a tag from here on. -/
def tagText? : Nat → List Char → Cursor → Option (List Char × Cursor)
  | 0, _, _ => none
  | fuel + 1, text, c =>
    match c.peek? with
    | none => some (text, c)
    | some d =>
      if d = '%' then do
        let (e, c) ← encoded? c
        tagText? fuel (text ++ [e]) c
      else if isName d || isTagMark d then tagText? fuel (text ++ [d]) c.skip
      else some (text, c)

/-- What may stand before the text of a tag: `!`, `!!` or `!name!`; or the start of its text. -/
def tagHandle (c : Cursor) : List Char × Cursor :=
  let name := c.skip.rest.takeWhile isName
  let c := c.skipMany (name.length + 1)
  if c.peek? = some '!' then ('!' :: name ++ ['!'], c.skip) else ('!' :: name, c)

def tag? (c : Cursor) : Option (Token × Cursor) := do
  let fuel := c.rest.length + 1
  let (t, c) ←
    if c.skip.peek? = some '<' then do
      let (text, c) ← tagText? fuel [] c.skip.skip
      if text.isEmpty ∨ c.peek? ≠ some '>' then none
      else some (.tag "" (String.ofList text), c.skip)
    else
      let (handle, c) := tagHandle c
      if 2 ≤ handle.length ∧ handle.getLast? = some '!' then do
        let (text, c) ← tagText? fuel [] c
        if text.isEmpty then none else some (.tag (String.ofList handle) (String.ofList text), c)
      else do
        let (text, c) ← tagText? fuel handle.tail c
        some (if text.isEmpty then .tag "" "!" else .tag "!" (String.ofList text), c)
  if atGap c.rest then return (t, c) else none

/-- The place after a directive. -/
def directive? (c : Cursor) : Option Cursor := do
  let c := c.skip
  let name := c.rest.takeWhile isName
  let c := c.skipMany name.length
  if name.isEmpty ∨ !atGap c.rest then none
  let c ←
    if name = "YAML".toList then
      match ← versionPart? c.skipBlanks with
      | c => if c.peek? = some '.' then versionPart? c.skip else none
    else if name = "TAG".toList then do
      let c := c.skipBlanks
      if c.peek? ≠ some '!' then none
      let (handle, c) := tagHandle c
      if handle.length ≠ 1 ∧ handle.getLast? ≠ some '!' then none
      let c := c.skipBlanks
      let (text, c) ← tagText? (c.rest.length + 1) [] c
      if text.isEmpty ∨ !atGap c.rest then none else some c
    else some (c.skipWhile fun d => !isBreak d)
  let c := c.skipBlanks.skipComment
  if c.atLineEnd then return c.skipBreak else none

/-- A token of one character that opens a flow collection. -/
def flowStart? (x : Lexer) (t : Token) : Option Lexer := do
  if 255 ≤ x.depth then none
  let x ← x.saveCandidate?
  return { ((x.skip 1).push t).allowKey with
    depth := x.depth + 1
    candidate := none
    candidates := x.candidate :: x.candidates }

def flowEnd? (x : Lexer) (t : Token) : Option Lexer := do
  let x ← x.dropCandidate?
  let x := ((x.skip 1).push t).forbidKey
  if x.depth = 0 then return x
  return { x with
    depth := x.depth - 1
    candidate := x.candidates.headD none
    candidates := x.candidates.tail }

def comma? (x : Lexer) : Option Lexer := do
  return (((← x.dropCandidate?).allowKey).skip 1).push .comma

/-- An entry of a block sequence. -/
def dash? (x : Lexer) : Option Lexer := do
  if 0 < x.depth ∨ !x.keyAllowed then none
  let x := x.openAt x.cursor.column none .sequenceStart
  return (((← x.dropCandidate?).allowKey).skip 1).push .entry

/-- A key behind a question mark. -/
def key? (x : Lexer) : Option Lexer := do
  if x.depth = 0 ∧ !x.keyAllowed then none
  let x := x.openAt x.cursor.column none .mappingStart
  let x ← x.dropCandidate?
  return ({ x with keyAllowed := x.depth == 0 }.skip 1).push .key

/-- The value of a key. -/
def value? (x : Lexer) : Option Lexer :=
  match x.candidate with
  | some k =>
    let x := (x.insertAt k.token .key).openAt k.column (some k.token) .mappingStart
    some (({ x with candidate := none, keyAllowed := false }.skip 1).push .value)
  | none =>
    if x.depth = 0 ∧ !x.keyAllowed then none
    else
      let x := x.openAt x.cursor.column none .mappingStart
      some (({ x with keyAllowed := x.depth == 0 }.skip 1).push .value)

/-- An anchor or an alias, by its name. -/
def named? (x : Lexer) (t : String → Token) : Option Lexer := do
  let x ← x.saveCandidate?
  let name := x.cursor.skip.rest.takeWhile isName
  let x := (x.skip (name.length + 1)).forbidKey
  let closed := atGap x.cursor.rest ||
    x.cursor.peek?.any (· ∈ ['?', ':', ',', ']', '\x7d', '%', '@', Char.ofNat 96])
  if name.isEmpty ∨ !closed then none else return x.push (t (String.ofList name))

def tagToken? (x : Lexer) : Option Lexer := do
  let x ← x.saveCandidate?
  let (t, c) ← tag? x.cursor
  return ({ x with cursor := c }.push t).forbidKey

def blockScalar? (x : Lexer) (folded : Bool) : Option Lexer := do
  let x ← x.saveCandidate?
  let (text, c) ← block? folded x.indent x.cursor.skip
  return ({ x with cursor := c }.push (.scalar false text)).allowKey

def quotedScalar? (x : Lexer) (quote : Char) : Option Lexer := do
  let x ← x.saveCandidate?
  let (text, c) ← quoted? quote (x.cursor.rest.length + 1) [] x.cursor.skip
  return { (x.push (.scalar false text)).forbidKey with cursor := c, quotedEnd := some c.index }

def plainScalar? (x : Lexer) : Option Lexer := do
  let x ← x.saveCandidate?
  let c := x.cursor
  let (text, c, onNewLine) ←
    plain? (0 < x.depth) (x.indent + 1).toNat (c.rest.length + 1) [] {} c
  return { x.push (.scalar true text) with cursor := c, keyAllowed := onNewLine }

def documentMarker? (x : Lexer) (t : Token) : Option Lexer := do
  return ((← x.closeAll?).skip 3).push t

/-- The next token, if there is one more. -/
def step? (x : Lexer) : Option (Lexer ⊕ List Token) := do
  let x ← (skipToToken (x.cursor.rest.length + 1) x).dropStale?
  let x := x.closeTo x.cursor.column
  match x.cursor.rest with
  | [] => return .inr (← x.closeAll?).tokens
  | c :: rest =>
    let gap := atGap rest
    let adjacent := 0 < x.depth ∧ (rest.head?.any isFlow ∨ x.quotedEnd = some x.cursor.index)
    .inl <$>
      if x.cursor.column = 0 ∧ c = '%' then do
        let x ← x.closeAll?
        return { x with cursor := ← directive? x.cursor }.push .directive
      else if x.cursor.atMarker '-' then x.documentMarker? .documentStart
      else if x.cursor.atMarker '.' then x.documentMarker? .documentEnd
      else if c = '[' then x.flowStart? .flowSequenceStart
      else if c = '\x7b' then x.flowStart? .flowMappingStart
      else if c = ']' then x.flowEnd? .flowSequenceEnd
      else if c = '\x7d' then x.flowEnd? .flowMappingEnd
      else if c = ',' then x.comma?
      else if c = '-' ∧ gap then x.dash?
      else if c = '?' ∧ gap then x.key?
      else if c = ':' ∧ (gap ∨ adjacent) then x.value?
      else if c = '*' then x.named? .alias
      else if c = '&' then x.named? .anchor
      else if c = '!' then x.tagToken?
      else if c = '|' ∧ x.depth = 0 then x.blockScalar? false
      else if c = '>' ∧ x.depth = 0 then x.blockScalar? true
      else if c = '\'' ∨ c = '"' then x.quotedScalar? c
      else if c ∈ ['%', '@', Char.ofNat 96] then none
      else x.plainScalar?

/-- All tokens, of which a step gives at least one. -/
def run? : Nat → Lexer → Option (List Token)
  | 0, _ => none
  | fuel + 1, x => do
    match ← x.step? with
    | .inl x => run? fuel x
    | .inr tokens => return tokens

end Lexer

/-- The tokens of a text, which a NUL ends. -/
def tokens? (text : String) : Option (List Token) :=
  let s := text.toList.takeWhile (·.toNat != 0)
  Lexer.run? (s.length + 2) { cursor := { rest := s } }

end Reachability.Yaml
