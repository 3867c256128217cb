import Reachability.Document

namespace Reachability.Document

def jsonChar (c : Char) : List Char :=
  match c with
  | '"' => ['\\', '"']
  | '\\' => ['\\', '\\']
  | '\n' => ['\\', 'n']
  | '\r' => ['\\', 'r']
  | '\t' => ['\\', 't']
  | '\x08' => ['\\', 'b']
  | '\x0c' => ['\\', 'f']
  | c =>
    if c.toNat < 0x20 then
      let digits := Nat.toDigits 16 c.toNat
      '\\' :: 'u' :: List.replicate (4 - digits.length) '0' ++ digits
    else [c]

def jsonString (s : String) : String :=
  "\"" ++ String.ofList (s.toList.flatMap jsonChar) ++ "\""

mutual

/-- The JSON text of a document, without blanks. -/
def toJson : Document → String
  | null => "null"
  | boolean b => if b then "true" else "false"
  | integer n => toString n
  | text s => jsonString s
  | sequence items => "[" ++ jsonItems true items ++ "]"
  | mapping fields => "\x7b" ++ jsonFields true fields ++ "\x7d"

def jsonItems (first : Bool) : List Document → String
  | [] => ""
  | item :: rest => (if first then "" else ",") ++ toJson item ++ jsonItems false rest

def jsonFields (first : Bool) : List (String × Document) → String
  | [] => ""
  | (k, v) :: rest =>
    (if first then "" else ",") ++ jsonString k ++ ":" ++ toJson v ++ jsonFields false rest

end

end Reachability.Document
