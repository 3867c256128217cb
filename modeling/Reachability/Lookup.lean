import Reachability.Failure
import Reachability.Manifest.Object

namespace Reachability

/-- Every pair of a carriage return and a line feed as a line feed alone. -/
def unifyBreaks : List Char → List Char
  | '\r' :: '\n' :: rest => '\n' :: unifyBreaks rest
  | c :: rest => c :: unifyBreaks rest
  | [] => []

/-- The pattern stands somewhere in the text. -/
def occursIn (pattern : List Char) : List Char → Bool
  | [] => pattern.isEmpty
  | c :: rest => pattern.isPrefixOf (c :: rest) || occursIn pattern rest

/-- The output names the service's address at the end of a line. A service without an expected
address passes. -/
def verifyLookup (s : Manifest.Service) (output : String) : Except Mismatch Unit :=
  let expected := s.expectedAddress
  let output := String.ofList (unifyBreaks output.toList)
  if expected = "" then .ok ()
  else if occursIn ("Address: " ++ expected ++ "\n").toList output.toList then .ok ()
  else .error (.addressNotResolved expected output)

end Reachability
