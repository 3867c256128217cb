import Reachability.Toml.Moment
import Reachability.Toml.Number

namespace Reachability.Toml

def isBlank (c : Char) : Bool := c == ' ' || c == '\t'

def skipBlank (s : List Char) : List Char := s.dropWhile isBlank

/-- A character of a comment or of a string, beside line breaks. -/
def isPlain (c : Char) : Bool := c == '\t' || (0x20 ≤ c.toNat && c.toNat != 0x7F)

/-- The text after a line break. -/
def break? : List Char → Option (List Char)
  | '\n' :: rest => some rest
  | '\r' :: '\n' :: rest => some rest
  | _ => none

def skipComment : List Char → List Char
  | '#' :: rest => rest.dropWhile isPlain
  | rest => rest

/-- The text after the rest of a line, in which only blanks and a comment may stand. -/
def lineEnd? (s : List Char) : Option (List Char) :=
  match skipComment (skipBlank s) with
  | [] => some []
  | rest => break? rest

/-- Leaves out blanks, comments and line breaks. The fuel bounds the number of lines. -/
def skipLines : Nat → List Char → List Char
  | 0, s => s
  | fuel + 1, s =>
    match break? (skipComment (skipBlank s)) with
    | some rest => skipLines fuel rest
    | none => skipComment (skipBlank s)

/-- The character of a code point in hexadecimal digits. -/
def codePoint? (ds : List Char) : Option Char :=
  if ds.all (Number.isDigitIn 16) then
    let n := ds.foldl (fun n c => n * 16 + Number.digitValue c) 0
    if n.isValidChar then some (Char.ofNat n) else none
  else none

/-- The character that an escape stands for, from the letter after its backslash on. -/
def escape? : List Char → Option (Char × List Char)
  | 'b' :: rest => some ('\x08', rest)
  | 't' :: rest => some ('\t', rest)
  | 'n' :: rest => some ('\n', rest)
  | 'f' :: rest => some ('\x0c', rest)
  | 'r' :: rest => some ('\r', rest)
  | '"' :: rest => some ('"', rest)
  | '\\' :: rest => some ('\\', rest)
  | 'u' :: rest => do
    if rest.length < 4 then none
    return (← codePoint? (rest.take 4), rest.drop 4)
  | 'U' :: rest => do
    if rest.length < 8 then none
    return (← codePoint? (rest.take 8), rest.drop 8)
  | _ => none

/-- The number of quotes that a text starts with. -/
def quotes (quote : Char) (s : List Char) : Nat := (s.takeWhile (· == quote)).length

/-- A string on one line, after its opening quote. -/
def line? (quote : Char) : Nat → List Char → Option (List Char × List Char)
  | 0, _ | _, [] => none
  | fuel + 1, c :: rest =>
    if c = quote then some ([], rest)
    else if c = '\\' ∧ quote = '"' then do
      let (d, rest) ← escape? rest
      let (cs, rest) ← line? quote fuel rest
      return (d :: cs, rest)
    else if isPlain c then do
      let (cs, rest) ← line? quote fuel rest
      return (c :: cs, rest)
    else none

/-- A string over several lines, after its opening quotes. Up to two quotes may stand right before
the closing ones. -/
def lines? (quote : Char) : Nat → List Char → Option (List Char × List Char)
  | 0, _ | _, [] => none
  | fuel + 1, c :: rest =>
    if c = quote then
      let n := quotes quote (c :: rest)
      if 3 ≤ n then some (List.replicate (min (n - 3) 2) quote, (c :: rest).drop (min n 5))
      else do
        let (cs, rest) ← lines? quote fuel rest
        return (c :: cs, rest)
    else
      match break? (c :: rest) with
      | some rest => do
        let (cs, rest) ← lines? quote fuel rest
        return ('\n' :: cs, rest)
      | none =>
        if c = '\\' ∧ quote = '"' then
          match break? (skipBlank rest) with
          | some rest => lines? quote fuel (skipBreaks rest.length rest)
          | none => do
            let (d, rest) ← escape? rest
            let (cs, rest) ← lines? quote fuel rest
            return (d :: cs, rest)
        else if isPlain c then do
          let (cs, rest) ← lines? quote fuel rest
          return (c :: cs, rest)
        else none
where
  /-- Leaves out blanks and line breaks. -/
  skipBreaks : Nat → List Char → List Char
    | 0, s => s
    | fuel + 1, s =>
      match break? (skipBlank s) with
      | some rest => skipBreaks fuel rest
      | none => skipBlank s

/-- A string from its opening quote on. -/
def string? (s : List Char) : Option (String × List Char) :=
  let ofChars := Option.map fun ((cs, rest) : List Char × List Char) => (String.ofList cs, rest)
  match s with
  | c :: rest =>
    if c = '"' ∨ c = '\'' then
      if 3 ≤ quotes c s then
        let body := s.drop 3
        ofChars (lines? c s.length ((break? body).getD body))
      else ofChars (line? c s.length rest)
    else none
  | [] => none

def isKeyChar (c : Char) : Bool := c.isAlphanum || c == '_' || c == '-'

/-- One part of a key: letters, digits, `_` and `-`, or a string on one line. -/
def keyPart? (s : List Char) : Option (String × List Char) :=
  match s with
  | [] => none
  | c :: rest =>
    if c = '"' ∨ c = '\'' then
      (line? c s.length rest).map fun (cs, rest) => (String.ofList cs, rest)
    else if isKeyChar c then some (String.ofList (s.takeWhile isKeyChar), s.dropWhile isKeyChar)
    else none

/-- A key: parts with points between them, and blanks around each. -/
def key? : Nat → List Char → Option (List String × List Char)
  | 0, _ => none
  | fuel + 1, s => do
    let (part, rest) ← keyPart? (skipBlank s)
    match skipBlank rest with
    | '.' :: rest =>
      let (parts, rest) ← key? fuel rest
      return (part :: parts, rest)
    | rest => return ([part], rest)

def isWordChar (c : Char) : Bool := c.isAlphanum || c ∈ ['_', '+', '-', '.', ':']

/-- A value that is one word, or a date and a time. -/
def word? (s : List Char) : Option (Toml × List Char) :=
  let word := s.takeWhile isWordChar
  let rest := s.dropWhile isWordChar
  if word = "true".toList then some (.truth true, rest)
  else if word = "false".toList then some (.truth false, rest)
  else
    match Moment.read? s with
    | some (t, rest) => some (.moment t, rest)
    | none => (Number.ofWord? word).map (·, rest)

mutual

/-- A value and what follows it. The fuel bounds the number of characters. -/
def value? : Nat → List Char → Option (Toml × List Char)
  | 0, _ => none
  | fuel + 1, s =>
    match s with
    | '[' :: rest => (items? fuel rest).map fun (vs, rest) => (.array vs, rest)
    | '\x7b' :: rest =>
      match skipBlank rest with
      | '\x7d' :: rest => some (.table .closed [], rest)
      | rest => (members? fuel [] rest).map fun (es, rest) => (.table .closed es, rest)
    | '"' :: _ | '\'' :: _ => (string? s).map fun (t, rest) => (.text t, rest)
    | _ => word? s

/-- The values of an array up to its closing bracket. A comma may follow the last one. -/
def items? : Nat → List Char → Option (List Toml × List Char)
  | 0, _ => none
  | fuel + 1, s =>
    match skipLines s.length s with
    | ']' :: rest => some ([], rest)
    | rest => do
      let (v, rest) ← value? fuel rest
      match skipLines rest.length rest with
      | ']' :: rest => some ([v], rest)
      | ',' :: rest => (items? fuel rest).map fun (vs, rest) => (v :: vs, rest)
      | _ => none

/-- The entries of an inline table up to its closing brace, with those read so far. -/
def members? : Nat → Entries → List Char → Option (Entries × List Char)
  | 0, _, _ => none
  | fuel + 1, entries, s => do
    let (key, rest) ← key? s.length s
    match rest with
    | '=' :: rest =>
      let (v, rest) ← value? fuel (skipBlank rest)
      let entries ← add v key entries
      match skipBlank rest with
      | '\x7d' :: rest => some (entries, rest)
      | ',' :: rest => members? fuel entries rest
      | _ => none
    | _ => none

end

/-- The keys of a header up to its closing bracket. -/
def header? (s : List Char) : Option (List String × List Char) := do
  match ← key? s.length s with
  | (key, ']' :: rest) => some (key, rest)
  | _ => none

/-- The entries of a document, of which those in `entries` are read and the table at `current` is
open. The fuel bounds the number of lines. -/
def lines : Nat → List String → Entries → List Char → Option Entries
  | 0, _, _, _ => none
  | fuel + 1, current, entries, s =>
    match skipLines s.length s with
    | [] => some entries
    | '[' :: '[' :: rest => do
      match ← header? rest with
      | (key, ']' :: rest) =>
        let (front, last) ← splitLast key
        lines fuel key (← underHeader (openNext last) front entries) (← lineEnd? rest)
      | _ => none
    | '[' :: rest => do
      let (key, rest) ← header? rest
      let (front, last) ← splitLast key
      lines fuel key (← underHeader (openTable last) front entries) (← lineEnd? rest)
    | s => do
      match ← key? s.length s with
      | (key, '=' :: rest) =>
        let (v, rest) ← value? (rest.length + 1) (skipBlank rest)
        lines fuel current (← underHeader (add v key) current entries) (← lineEnd? rest)
      | _ => none

/-- The entries of the document that a text spells. -/
def parse (text : String) : Option Entries :=
  let s := text.toList
  lines (s.length + 1) [] [] s

end Reachability.Toml
