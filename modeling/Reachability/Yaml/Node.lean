import Reachability.Decimal.Binary64
import Reachability.Decimal.Integer
import Reachability.Yaml.Token

namespace Reachability

inductive Yaml where
  /-- Null, or a scalar that does not fit its tag. -/
  | null
  | truth (b : Bool)
  | integer (n : Int)
  /-- A number by its text. -/
  | real (text : String)
  | text (s : String)
  | sequence (items : List Yaml)
  | mapping (entries : List (Yaml × Yaml))
deriving Repr, Inhabited

namespace Yaml

/-- Digits of a base with an optional sign, as an integer of 64 bits. -/
def inBase? (base : Nat) (s : List Char) : Option Int :=
  let (negative, digits) := Decimal.sign s
  match digits.mapM hexValue? with
  | none | some [] => none
  | some ds =>
    let n : Int := Int.ofNat (ds.foldl (fun n d => n * base + d) 0)
    let n := if negative then -n else n
    if ds.all (· < base) ∧ Decimal.isInteger64 n then
      some n
    else none

/-- The spellings of infinity and of what is no number, besides decimal notation. -/
def isNumberWord (s : String) : Bool :=
  s ∈ [".inf", ".Inf", ".INF", "+.inf", "+.Inf", "+.INF", "-.inf", "-.Inf", "-.INF", ".nan", "NaN",
    ".NAN"]

def isNumber (s : String) : Bool := isNumberWord s || (Binary64.ofString? s).isSome

/-- The integer that a plain scalar spells: in decimal, or in hexadecimal after `0x` and octal after
`0o`. A plus may stand before a sign. -/
def integer? (s : String) : Option Int :=
  let based :=
    match s.toList with
    | '0' :: 'x' :: rest => inBase? 16 rest
    | '0' :: 'o' :: rest => inBase? 8 rest
    | '+' :: rest => inBase? 10 rest
    | _ => none
  based <|> Decimal.integer64? s

/-- What a plain scalar without a tag stands for. -/
def ofPlain (s : String) : Yaml :=
  match integer? s with
  | some n => integer n
  | none =>
    if s = "~" ∨ s = "null" then null
    else if s = "true" then truth true
    else if s = "false" then truth false
    else if isNumber s then real s
    else text s

/-- What a plain scalar with a tag stands for. -/
def ofTagged (handle suffix s : String) : Yaml :=
  if handle ≠ "!!" then text s
  else
    match suffix with
    | "bool" => if s = "true" then truth true else if s = "false" then truth false else null
    | "int" => ((Decimal.integer64? s).map integer).getD null
    | "float" => if isNumber s then real s else null
    | "null" => null
    | _ => text s

/-- Nodes that an alias may stand for: the latest number of each name, and the nodes by number. A
node that is not complete has none yet. -/
structure Anchors where
  names : List (String × Nat) := []
  nodes : List (Nat × Yaml) := []
  count : Nat := 0

namespace Anchors

def add (a : Anchors) (name : String) : Anchors :=
  { a with names := (name, a.count) :: a.names, count := a.count + 1 }

def complete (a : Anchors) (n : Nat) (v : Yaml) : Anchors := { a with nodes := (n, v) :: a.nodes }

/-- The node of a name, which has to be known; null while it is not complete. -/
def get? (a : Anchors) (name : String) : Option Yaml := do
  let n ← a.names.lookup name
  return (a.nodes.lookup n).getD null

end Anchors

/-- An anchor and a tag before a node. -/
structure Properties where
  anchor : Option Nat := none
  tag : Option (String × String) := none

namespace Properties

def isEmpty (p : Properties) : Bool := p.anchor.isNone && p.tag.isNone

def complete (p : Properties) (a : Anchors) (v : Yaml) : Anchors :=
  match p.anchor with
  | some n => a.complete n v
  | none => a

/-- An anchor and a tag, in either order, and what follows them. -/
def read (a : Anchors) : List Token → Properties × Anchors × List Token
  | .anchor name :: .tag h s :: rest => (⟨some a.count, some (h, s)⟩, a.add name, rest)
  | .tag h s :: .anchor name :: rest => (⟨some a.count, some (h, s)⟩, a.add name, rest)
  | .anchor name :: rest => (⟨some a.count, none⟩, a.add name, rest)
  | .tag h s :: rest => (⟨none, some (h, s)⟩, a, rest)
  | rest => ({}, a, rest)

end Properties

/-- What a scalar stands for. -/
def ofScalar (p : Properties) (plain : Bool) (s : String) : Yaml :=
  if !plain then text s
  else
    match p.tag with
    | some (handle, suffix) => ofTagged handle suffix s
    | none => ofPlain s

/-- Gives a key its value, in place of the one it had. Keys are the same if they are the same
scalar. -/
def putEntry (k v : Yaml) : List (Yaml × Yaml) → List (Yaml × Yaml)
  | [] => [(k, v)]
  | (k', v') :: rest =>
    match k, k' with
    | text s, text s' | real s, real s' =>
      if s = s' then (k', v) :: rest else (k', v') :: putEntry k v rest
    | integer n, integer n' => if n = n' then (k', v) :: rest else (k', v') :: putEntry k v rest
    | _, _ => (k', v') :: putEntry k v rest

/-- A token that ends a node without content in a block collection. -/
def endsBlock : Token → Bool
  | .key | .value | .blockEnd => true
  | _ => false

def ofPairs (entries : List (Yaml × Yaml)) : Yaml :=
  mapping (entries.foldl (fun es (k, v) => putEntry k v es) [])

/-- What is read from tokens, with those that follow it and the anchors known then. -/
abbrev Found (α : Type) := α × List Token × Anchors

mutual

/-- A node. Block collections are allowed if `block` holds, and entries of a sequence without an
indentation of its own if `flat` holds. The fuel bounds the number of tokens. -/
def node? (block flat : Bool) : Nat → List Token → Anchors → Option (Found Yaml)
  | 0, _, _ => none
  | fuel + 1, ts, a =>
    match ts with
    | .alias name :: rest => (a.get? name).map (·, rest, a)
    | ts =>
      let (p, a, ts) := Properties.read a ts
      let done (v : Yaml) (rest : List Token) (a : Anchors) : Option (Found Yaml) :=
        some (v, rest, p.complete a v)
      match ts with
      | .scalar plain s :: rest => done (ofScalar p plain s) rest a
      | .flowSequenceStart :: rest => do
        let (vs, rest, a) ← flowItems? true fuel rest a
        done (sequence vs) rest a
      | .flowMappingStart :: rest => do
        let (es, rest, a) ← flowEntries? true fuel rest a
        done (ofPairs es) rest a
      | t :: rest =>
        if t = .entry ∧ flat then do
          let (vs, rest, a) ← flatItems? fuel ts a
          done (sequence vs) rest a
        else if t = .sequenceStart ∧ block then do
          let (vs, rest, a) ← blockItems? fuel rest a
          done (sequence vs) rest a
        else if t = .mappingStart ∧ block then do
          let (es, rest, a) ← blockEntries? fuel rest a
          done (ofPairs es) rest a
        else if p.isEmpty then none
        else done (ofScalar p true "") ts a
      | [] => if p.isEmpty then none else done (ofScalar p true "") [] a

/-- The entries of a sequence that has no indentation of its own. -/
def flatItems? : Nat → List Token → Anchors → Option (Found (List Yaml))
  | 0, _, _ => none
  | fuel + 1, ts, a =>
    match ts with
    | .entry :: t :: rest => do
      let (v, rest, a) ←
        if endsBlock t ∨ t = .entry then some (null, t :: rest, a)
        else node? true false fuel (t :: rest) a
      let (vs, rest, a) ← flatItems? fuel rest a
      return (v :: vs, rest, a)
    | [.entry] => none
    | ts => some ([], ts, a)

/-- The entries of a block sequence, up to its end. -/
def blockItems? : Nat → List Token → Anchors → Option (Found (List Yaml))
  | 0, _, _ => none
  | fuel + 1, ts, a =>
    match ts with
    | .blockEnd :: rest => some ([], rest, a)
    | .entry :: t :: rest => do
      let (v, rest, a) ←
        if t = .blockEnd ∨ t = .entry then some (null, t :: rest, a)
        else node? true false fuel (t :: rest) a
      let (vs, rest, a) ← blockItems? fuel rest a
      return (v :: vs, rest, a)
    | _ => none

/-- The entries of a block mapping, up to its end. A key or a value may be missing. -/
def blockEntries? : Nat → List Token → Anchors → Option (Found (List (Yaml × Yaml)))
  | 0, _, _ => none
  | fuel + 1, ts, a => do
    match ts with
    | .blockEnd :: rest => return ([], rest, a)
    | t :: rest =>
      let (k, rest, a) ←
        match t, rest with
        | .key, t :: rest =>
          if endsBlock t then some (null, t :: rest, a) else node? true true fuel (t :: rest) a
        | .value, _ => some (null, ts, a)
        | _, _ => none
      let (v, rest, a) ←
        match rest with
        | .value :: t :: rest =>
          if endsBlock t then some (null, t :: rest, a) else node? true true fuel (t :: rest) a
        | rest => some (null, rest, a)
      let (es, rest, a) ← blockEntries? fuel rest a
      return ((k, v) :: es, rest, a)
    | [] => none

/-- The values of a flow sequence, up to its end. A pair with a colon is a mapping of its own. -/
def flowItems? (first : Bool) : Nat → List Token → Anchors → Option (Found (List Yaml))
  | 0, _, _ => none
  | fuel + 1, ts, a => do
    match ts with
    | .flowSequenceEnd :: rest => return ([], rest, a)
    | ts =>
      let ts ←
        if first then some ts
        else
          match ts with
          | .comma :: rest => some rest
          | _ => none
      match ts with
      | .flowSequenceEnd :: rest => return ([], rest, a)
      | .key :: rest =>
        let (k, rest, a) ←
          match rest with
          | .value :: _ | .comma :: _ | .flowSequenceEnd :: _ => some (null, rest, a)
          | rest => node? false false fuel rest a
        let (v, rest, a) ← flowValue? fuel rest a
        let (vs, rest, a) ← flowItems? false fuel rest a
        return (mapping [(k, v)] :: vs, rest, a)
      | ts =>
        let (v, rest, a) ← node? false false fuel ts a
        let (vs, rest, a) ← flowItems? false fuel rest a
        return (v :: vs, rest, a)

/-- The entries of a flow mapping, up to its end. -/
def flowEntries? (first : Bool) : Nat → List Token → Anchors → Option (Found (List (Yaml × Yaml)))
  | 0, _, _ => none
  | fuel + 1, ts, a => do
    match ts with
    | .flowMappingEnd :: rest => return ([], rest, a)
    | ts =>
      let ts ←
        if first then some ts
        else
          match ts with
          | .comma :: rest => some rest
          | _ => none
      match ts with
      | .flowMappingEnd :: rest => return ([], rest, a)
      | .key :: rest =>
        let (k, rest, a) ←
          match rest with
          | .value :: _ | .comma :: _ | .flowMappingEnd :: _ => some (null, rest, a)
          | rest => node? false false fuel rest a
        let (v, rest, a) ← flowValue? fuel rest a
        let (es, rest, a) ← flowEntries? false fuel rest a
        return ((k, v) :: es, rest, a)
      | .value :: _ =>
        let (v, rest, a) ← flowValue? fuel ts a
        let (es, rest, a) ← flowEntries? false fuel rest a
        return ((null, v) :: es, rest, a)
      | ts =>
        let (k, rest, a) ← node? false false fuel ts a
        let (es, rest, a) ← flowEntries? false fuel rest a
        return ((k, null) :: es, rest, a)

/-- The value behind a colon in a flow collection; null if there is none. -/
def flowValue? : Nat → List Token → Anchors → Option (Found Yaml)
  | 0, _, _ => none
  | fuel + 1, ts, a =>
    match ts with
    | .value :: t :: rest =>
      if t = .comma ∨ t = .flowMappingEnd ∨ t = .flowSequenceEnd then some (null, t :: rest, a)
      else node? false false fuel (t :: rest) a
    | .value :: [] => none
    | ts => some (null, ts, a)

end

/-- A token that stands between documents. -/
def endsDocument : Token → Bool
  | .directive | .documentStart | .documentEnd => true
  | _ => false

/-- The documents from here on. Before each but the first there is a marker. -/
def documents? (first : Bool) : Nat → List Token → Option (List Yaml)
  | 0, _ => none
  | fuel + 1, ts => do
    let ts := if first then ts else ts.dropWhile (· == .documentEnd)
    if ts.isEmpty then return []
    let explicit := !first || ts.head? == some .directive || ts.head? == some .documentStart
    let ts := ts.dropWhile (· == .directive)
    let (v, ts) ←
      match explicit, ts with
      | true, .documentStart :: rest =>
        if rest.head?.all endsDocument then some (null, rest)
        else (node? true false (rest.length * 2 + 2) rest {}).map fun (v, rest, _) => (v, rest)
      | true, _ => none
      | false, ts => (node? true false (ts.length * 2 + 2) ts {}).map fun (v, ts, _) => (v, ts)
    let ts := if ts.head? == some .documentEnd then ts.tail else ts
    return v :: (← documents? false fuel ts)

/-- The documents of a text. -/
def parse (s : String) : Option (List Yaml) := do
  let ts ← tokens? s
  documents? true (ts.length + 1) ts

end Yaml

end Reachability
