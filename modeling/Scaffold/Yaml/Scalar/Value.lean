import Scaffold.Number.Reading
import Scaffold.Text.Basic

/-!
What an unquoted YAML scalar stands for: nothing, a truth value, an integer, a number, or else the
text itself. Digits after a leading zero are text.
-/

namespace Scaffold.Yaml

def isNull (s : String) : Bool :=
  s == "null" || s == "Null" || s == "NULL" || s == "~"

/-- The truth value that a scalar stands for. -/
def bool? (s : String) : Option Bool :=
  if s == "true" || s == "True" || s == "TRUE" then some true
  else if s == "false" || s == "False" || s == "FALSE" then some false
  else none

/-- Digits with a leading zero, perhaps after a sign. -/
def isPaddedDigits (s : String) : Bool :=
  match (Number.splitSign s.toList).2 with
  | '0' :: c :: cs => (c :: cs).all Char.isDigit
  | _ => false

/-- The value of a digit in bases up to sixteen. -/
def digitValue (c : Char) : Nat :=
  if c.isDigit then c.toNat - '0'.toNat
  else if 'a' ≤ c && c ≤ 'f' then c.toNat - 'a'.toNat + 10
  else if 'A' ≤ c && c ≤ 'F' then c.toNat - 'A'.toNat + 10
  else 16

/-- A non-empty run of digits in a base. -/
def natInBase? (base : Nat) (cs : List Char) : Option Nat :=
  if !cs.isEmpty && cs.all (digitValue · < base) then
    some (cs.foldl (fun n c => base * n + digitValue c) 0)
  else none

/-- A natural number without a sign: a run of decimal digits, or digits of base 16, 8 or 2 after
their mark. -/
def magnitude? : List Char → Option Nat
  | '0' :: 'x' :: cs => natInBase? 16 cs
  | '0' :: 'o' :: cs => natInBase? 8 cs
  | '0' :: 'b' :: cs => natInBase? 2 cs
  | cs => natInBase? 10 cs

/-- The natural number that a scalar stands for. -/
def nat? (s : String) : Option Nat :=
  if isPaddedDigits s then none
  else
    match s.toList with
    | '+' :: cs => magnitude? cs
    | cs => magnitude? cs

/-- The integer of at most 128 bits that a scalar stands for. -/
def int? (s : String) : Option Int :=
  match s.toList with
  | '-' :: cs =>
    if isPaddedDigits s then none
    else ((magnitude? cs).filter (· ≤ Nat.pow 2 127)).map fun n => -(n : Int)
  | _ => ((nat? s).filter (· < Nat.pow 2 128)).map fun n => (n : Int)

/-- The number with a fraction, the infinity or the missing number that a scalar stands for. -/
def float? (s : String) : Option Binary64 :=
  let unsigned := (Text.afterHead "+" s).getD s
  if [".inf", ".Inf", ".INF"].contains unsigned then
    some (Binary64.ofMagnitude false Binary64.infinityBits)
  else if ["-.inf", "-.Inf", "-.INF"].contains s then
    some (Binary64.ofMagnitude true Binary64.infinityBits)
  else if [".nan", ".NaN", ".NAN"].contains s then
    some (Binary64.ofMagnitude false Binary64.nanBits)
  else if unsigned != s && ["+", "-"].any (Text.startsWith · unsigned) then none
  else (Number.readBinary64? unsigned).filter fun x => !x.isInfinite && !x.isNaN

/-- What an unquoted scalar stands for. -/
inductive Value where
  | nothing
  | bool (b : Bool)
  | int (n : Int)
  | float (x : Binary64)
  | text (s : String)
  deriving DecidableEq, Inhabited

/-- What an unquoted scalar stands for. -/
def Value.ofPlain (s : String) : Value :=
  if s == "" || isNull s then .nothing
  else
    match bool? s, int? s, float? s with
    | some b, _, _ => .bool b
    | none, some n, _ => .int n
    | none, none, some x => if isPaddedDigits s then .text s else .float x
    | none, none, none => .text s

def isAmbiguous (s : String) : Bool :=
  Value.ofPlain s != .text s || isPaddedDigits s

end Scaffold.Yaml
