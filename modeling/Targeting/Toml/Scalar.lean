import Targeting.Calendar.Date
import Targeting.Json.Basic
import Targeting.Toml.Text
import Targeting.Word

/-!
# Numbers, dates and truth values of TOML

Integers have 64 bits with sign and are written in decimal, or without sign in hexadecimal, octal or
binary; floats are rounded to the nearest double. An underscore may stand between two digits. A date,
a time of day, or both are kept as text.

* `takeMoment`: a date or a time of day;
* `takeNumber`: an integer or a float;
* `takeScalar`: any value but an array or a table, as JSON; floats that are not finite become `null`.
-/

namespace Targeting.Toml

/-! ## Dates and times -/

/-- Two digits that make a number between two bounds, and the number. -/
def takeTwo (lo hi : Nat) : List Char → Option ((List Char × Nat) × List Char)
  | a :: b :: cs => do
    let n ← Text.digits? [a, b]
    if lo ≤ n ∧ n ≤ hi then some (([a, b], n), cs) else none
  | _ => none

/-- What follows a given character. -/
def takeMark (mark : Char) : List Char → Option (List Char)
  | c :: cs => if c = mark then some cs else none
  | [] => none

/-- The digits of a fraction of a second to the ninth, without zeros at the end, after a point. -/
def fractionText (ds : List Char) : List Char :=
  let kept := ((ds.take 9).reverse.dropWhile (· = '0')).reverse
  if kept = [] then [] else '.' :: kept

/-- A fraction of a second, if there is one. -/
def takeFraction : List Char → Option (List Char × List Char)
  | '.' :: cs =>
    let ds := cs.takeWhile Char.isDigit
    if ds = [] then none else some (fractionText ds, cs.dropWhile Char.isDigit)
  | cs => some ([], cs)

/-- A time of day. -/
def takeTime (cs : List Char) : Option (List Char × List Char) := do
  let ((hour, _), cs) ← takeTwo 0 23 cs
  let ((minute, _), cs) ← takeTwo 0 59 (← takeMark ':' cs)
  let ((second, _), cs) ← takeTwo 0 60 (← takeMark ':' cs)
  let (fraction, cs) ← takeFraction cs
  return (hour ++ ':' :: minute ++ ':' :: second ++ fraction, cs)

/-- A distance from universal time, if there is one; none at all has a plus sign. -/
def takeOffset : List Char → Option (List Char × List Char)
  | c :: cs =>
    if c = 'Z' ∨ c = 'z' then some (['Z'], cs)
    else if c = '+' ∨ c = '-' then do
      let ((hour, h), cs) ← takeTwo 0 23 cs
      let ((minute, m), cs) ← takeTwo 0 59 (← takeMark ':' cs)
      return ((if h = 0 ∧ m = 0 then '+' else c) :: hour ++ ':' :: minute, cs)
    else some ([], c :: cs)
  | [] => some ([], [])

/-- A date after its year, and a time of day if one follows. -/
def takeDate (year : List Char) (cs : List Char) : Option (List Char × List Char) := do
  let ((month, m), cs) ← takeTwo 1 12 cs
  let ((day, d), cs) ← takeTwo 1 31 (← takeMark '-' cs)
  discard (Calendar.Date.ofParts? (← Text.digits? year) m d)
  let date := year ++ '-' :: month ++ '-' :: day
  match cs with
  | c :: a :: rest =>
    if c = 'T' ∨ c = 't' ∨ (c = ' ' ∧ a.isDigit) then do
      let (time, rest) ← takeTime (a :: rest)
      let (offset, rest) ← takeOffset rest
      return (date ++ 'T' :: time ++ offset, rest)
    else some (date, cs)
  | _ => some (date, cs)

/-- A date or a time of day, if the text begins like one. -/
def takeMoment : List Char → Option (Option (List Char × List Char))
  | a :: b :: c :: d :: '-' :: cs =>
    if [a, b, c, d].all Char.isDigit then some (takeDate [a, b, c, d] cs) else none
  | a :: b :: ':' :: cs =>
    if a.isDigit && b.isDigit then some (takeTime (a :: b :: ':' :: cs)) else none
  | _ => none

/-! ## Numbers -/

/-- Digits with underscores between them, without the underscores. -/
def moreDigits (isDigit : Char → Bool) : List Char → List Char × List Char
  | '_' :: c :: cs =>
    if isDigit c then
      let (ds, rest) := moreDigits isDigit cs
      (c :: ds, rest)
    else ([], '_' :: c :: cs)
  | c :: cs =>
    if isDigit c then
      let (ds, rest) := moreDigits isDigit cs
      (c :: ds, rest)
    else ([], c :: cs)
  | [] => ([], [])

/-- At least one digit, and more with underscores between them. -/
def takeDigits (isDigit : Char → Bool) : List Char → Option (List Char × List Char)
  | c :: cs =>
    if isDigit c then
      let (ds, rest) := moreDigits isDigit cs
      some (c :: ds, rest)
    else none
  | [] => none

/-- An integer as JSON, if it has 64 bits. -/
def integer? (n : Int) : Option Json :=
  if FitsInt64 n then some (.ofInt64 (Int64.ofInt n)) else none

/-- An integer in a base other than ten. -/
def takeBased (base : Nat) (cs : List Char) : Option (Json × List Char) := do
  let isDigit (c : Char) : Bool := match hexDigit? c with
    | some d => d < base
    | none => false
  let (ds, rest) ← takeDigits isDigit cs
  let n := ds.foldl (fun n d => base * n + (hexDigit? d).getD 0) 0
  return (← integer? n, rest)

/-- The digits before a point: a single zero, or no zero in front. -/
def takeWhole : List Char → Option (List Char × List Char)
  | '0' :: cs => some (['0'], cs)
  | cs => takeDigits Char.isDigit cs

/-- An exponent, if there is one. -/
def takeExponent : List Char → Option (Option Int × List Char)
  | c :: cs =>
    if c = 'e' ∨ c = 'E' then
      let read (negative : Bool) (cs : List Char) : Option (Option Int × List Char) := do
        let (ds, rest) ← takeDigits Char.isDigit cs
        let n ← Text.digits? ds
        return (some (if negative then -(n : Int) else n), rest)
      match cs with
      | '+' :: cs => read false cs
      | '-' :: cs => read true cs
      | cs => read false cs
    else some (none, c :: cs)
  | [] => some (none, [])

/-- The digits after a point, if there is one. -/
def takeDecimals : List Char → Option (Option (List Char) × List Char)
  | '.' :: cs => (takeDigits Char.isDigit cs).map fun (ds, rest) => (some ds, rest)
  | cs => some (none, cs)

/-- The double nearest to a whole number times a power of ten. -/
def nearest (negative : Bool) (n : Nat) (e : Int) : Binary64 :=
  let digits : Int := (toString n).length
  if n = 0 ∨ e + digits < -330 then .finite (Binary64.Finite.zero.withSign negative)
  else if 310 < e + digits then .infinite negative
  else if 0 ≤ e then .ofRatio negative (n * tenTo e.natAbs) 1
  else .ofRatio negative n (tenTo e.natAbs)

/-- A float as JSON; one beyond every double is refused unless it is negative. -/
def float? (negative : Bool) (n : Nat) (e : Int) : Option Json :=
  match nearest negative n e with
  | .infinite false => none
  | x => some (.ofBinary64 x)

/-- A number after its sign. -/
def takeUnsigned (negative : Bool) : List Char → Option (Json × List Char)
  | 'i' :: 'n' :: 'f' :: cs => some (.null, cs)
  | 'n' :: 'a' :: 'n' :: cs => some (.null, cs)
  | cs => do
    let (whole, cs) ← takeWhole cs
    let (decimals, cs) ← takeDecimals cs
    let (exponent, cs) ← takeExponent cs
    match decimals, exponent with
    | none, none =>
      let n ← Text.digits? whole
      return (← integer? (if negative then -(n : Int) else n), cs)
    | _, _ =>
      let ds := decimals.getD []
      let n ← Text.digits? (whole ++ ds)
      return (← float? negative n (exponent.getD 0 - ds.length), cs)

/-- An integer or a float. -/
def takeNumber : List Char → Option (Json × List Char)
  | '0' :: 'x' :: cs => takeBased 16 cs
  | '0' :: 'o' :: cs => takeBased 8 cs
  | '0' :: 'b' :: cs => takeBased 2 cs
  | '+' :: cs => takeUnsigned false cs
  | '-' :: cs => takeUnsigned true cs
  | cs => takeUnsigned false cs

/-! ## Scalars -/

/-- A value that is neither an array nor a table. -/
def takeScalar (cs : List Char) : Option (Json × List Char) :=
  match cs with
  | 't' :: 'r' :: 'u' :: 'e' :: rest => some (.bool true, rest)
  | 'f' :: 'a' :: 'l' :: 's' :: 'e' :: rest => some (.bool false, rest)
  | '"' :: _ => (takeString cs).map fun (s, rest) => (.string s, rest)
  | '\'' :: _ => (takeString cs).map fun (s, rest) => (.string s, rest)
  | _ =>
    match takeMoment cs with
    | some moment => moment.map fun (text, rest) => (.string (String.ofList text), rest)
    | none => takeNumber cs

end Targeting.Toml
