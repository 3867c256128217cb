import Reachability.Decimal.Basic

namespace Reachability.Toml.Moment

/-- Exactly `n` digits, and what follows them. -/
def digits? (n : Nat) (s : List Char) : Option (Nat × List Char) :=
  let ds := s.take n
  if ds.length = n ∧ ds.all Char.isDigit then some (Decimal.digitsValue ds, s.drop n) else none

/-- The text after a character. -/
def after? (c : Char) : List Char → Option (List Char)
  | d :: rest => if d = c then some rest else none
  | [] => none

def isLeapYear (year : Nat) : Bool := year % 4 == 0 && (year % 100 != 0 || year % 400 == 0)

def daysOf (year month : Nat) : Nat :=
  if month = 2 then if isLeapYear year then 29 else 28
  else if month ∈ [4, 6, 9, 11] then 30
  else 31

/-- A date in its ten characters, which are its text too. -/
def date? (s : List Char) : Option (List Char × List Char) := do
  let (year, rest) ← digits? 4 s
  let (month, rest) ← digits? 2 (← after? '-' rest)
  let (day, rest) ← digits? 2 (← after? '-' rest)
  if 1 ≤ month ∧ month ≤ 12 ∧ 1 ≤ day ∧ day ≤ daysOf year month then some (s.take 10, rest)
  else none

/-- The digits of a fraction of a second down to the billionth, without zeros at the end. -/
def fractionText (ds : List Char) : List Char :=
  let kept := ((ds.take 9).reverse.dropWhile (· == '0')).reverse
  if kept.isEmpty then [] else '.' :: kept

/-- A time of day and its text. -/
def time? (s : List Char) : Option (List Char × List Char) := do
  let (hour, rest) ← digits? 2 s
  let (minute, rest) ← digits? 2 (← after? ':' rest)
  let (second, rest) ← digits? 2 (← after? ':' rest)
  if hour ≤ 23 ∧ minute ≤ 59 ∧ second ≤ 60 then
    match rest with
    | '.' :: rest =>
      let ds := rest.takeWhile Char.isDigit
      if ds.isEmpty then none
      else some (s.take 8 ++ fractionText ds, rest.dropWhile Char.isDigit)
    | rest => some (s.take 8, rest)
  else none

/-- An offset from universal time and its text; none if no offset follows. -/
def offset? : List Char → Option (List Char × List Char)
  | [] => some ([], [])
  | c :: rest =>
    if c = 'Z' ∨ c = 'z' then some (['Z'], rest)
    else if c = '+' ∨ c = '-' then do
      let (hour, after) ← digits? 2 rest
      let (minute, after) ← digits? 2 (← after? ':' after)
      if hour ≤ 23 ∧ minute ≤ 59 then
        let sign := if hour = 0 ∧ minute = 0 then '+' else c
        some (sign :: rest.take 5, after)
      else none
    else some ([], c :: rest)

/-- A date, a time or both, and the text in which it is reported. -/
def read? (s : List Char) : Option (String × List Char) :=
  match date? s with
  | none => (time? s).map fun (time, rest) => (String.ofList time, rest)
  | some (date, rest) =>
    let both := do
      match rest with
      | c :: rest =>
        if c = 'T' ∨ c = 't' ∨ c = ' ' then
          let (time, rest) ← time? rest
          let (offset, rest) ← offset? rest
          some (String.ofList (date ++ 'T' :: time ++ offset), rest)
        else none
      | [] => none
    both <|> some (String.ofList date, rest)

example : (read? "1979-05-27 07:32:00.500z".toList).map (·.1) = some "1979-05-27T07:32:00.5Z" := by
  decide +kernel
example : read? "2023-02-29".toList = none := by decide +kernel

end Reachability.Toml.Moment
