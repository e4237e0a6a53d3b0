import Mathlib.Data.Int.Log
import Mathlib.Data.Rat.Floor

/-!
# Patterns and numbers of Lua

The emulator's script takes its commands apart with Lua's patterns, and reads numbers with
`tonumber`: integers of 64 bits, and doubles where a text is no integer or too large for one.
-/

namespace NuzlockeSolver.Emulator

section Patterns

def isSpace (b : UInt8) : Bool := b = 32 || (9 ≤ b && b ≤ 13)

def isDigit (b : UInt8) : Bool := 48 ≤ b && b ≤ 57

def lower (bytes : List UInt8) : List UInt8 :=
  bytes.map fun b => if 65 ≤ b && b ≤ 90 then b + 32 else b

/-- What `^%s*(%S+)` matches. -/
def firstWord (args : List UInt8) : Option (List UInt8) :=
  let word := (args.dropWhile isSpace).takeWhile fun b => !isSpace b
  if word = [] then none else some word

/-- What `^%s*(.-)%s*$` matches. -/
def trim (args : List UInt8) : List UInt8 :=
  ((args.dropWhile isSpace).reverse.dropWhile isSpace).reverse

def decimal (digits : List UInt8) : Nat :=
  digits.foldl (fun n b => 10 * n + (b.toNat - 48)) 0

/-- What `^(%d+)%s+(%d+)` matches. -/
def twoNumbers (args : List UInt8) : Option (Nat × Nat) :=
  let first := args.takeWhile isDigit
  let rest := args.dropWhile isDigit
  let second := (rest.dropWhile isSpace).takeWhile isDigit
  if first = [] ∨ rest.takeWhile isSpace = [] ∨ second = [] then none
  else some (decimal first, decimal second)

end Patterns

section Numbers

/-- The magnitude of a float; `none` is infinity. -/
inductive LuaNumber where
  | integer (n : Int)
  | float (negative : Bool) (magnitude : Option Rat)
  deriving DecidableEq

def roundHalfEven (x : Rat) : Int :=
  let rest := x - ⌊x⌋
  if rest < 1 / 2 ∨ (rest = 1 / 2 ∧ ⌊x⌋ % 2 = 0) then ⌊x⌋ else ⌊x⌋ + 1

def toDouble (x : Rat) : Option Rat :=
  let exponent := max (Int.log 2 x - 52) (-1074)
  let rounded := (roundHalfEven (x / 2 ^ exponent) : Rat) * 2 ^ exponent
  if 2 ^ 1024 ≤ rounded then none else some rounded

def hexDigit (b : UInt8) : Bool := isDigit b || (97 ≤ b && b ≤ 102)

def valueOf (base : Nat) (digits : List UInt8) : Nat :=
  digits.foldl (fun n b => base * n + (if b ≤ 57 then b.toNat - 48 else b.toNat - 87)) 0

def signOf : List UInt8 → Bool × List UInt8
  | 45 :: rest => (true, rest)
  | 43 :: rest => (false, rest)
  | rest => (false, rest)

def exponentOf (mark : UInt8) : List UInt8 → Option Int
  | [] => some 0
  | b :: rest =>
    let (negative, digits) := signOf rest
    if b = mark ∧ digits ≠ [] ∧ digits.all isDigit then
      some (if negative then -(decimal digits : Int) else decimal digits)
    else none

/-- Digits with a point somewhere, and an exponent that scales by a power of `scale`. -/
def magnitudeOf (base scale : Nat) (mark : UInt8) (digit : UInt8 → Bool) (text : List UInt8) :
    Option Rat :=
  let whole := text.takeWhile digit
  let (fraction, rest) :=
    match text.dropWhile digit with
    | 46 :: rest => (rest.takeWhile digit, rest.dropWhile digit)
    | rest => ([], rest)
  if whole ++ fraction = [] then none
  else (exponentOf mark rest).map fun e =>
    (valueOf base (whole ++ fraction) : Rat) / (base : Rat) ^ fraction.length * (scale : Rat) ^ e

def maxInteger : Int := 2 ^ 63 - 1

/-- `tonumber` of a text without blanks. Hexadecimal integers wrap around. -/
def tonumber (text : List UInt8) : Option LuaNumber :=
  let (negative, body) := signOf (lower text)
  let signed (n : Nat) : Int := if negative then -n else n
  match body with
  | 48 :: 120 :: digits =>
    if digits ≠ [] ∧ digits.all hexDigit then
      some (.integer (Int.bmod (signed (valueOf 16 digits)) (2 ^ 64)))
    else (magnitudeOf 16 2 112 hexDigit digits).map fun x => .float negative (toDouble x)
  | digits =>
    if digits ≠ [] ∧ digits.all isDigit ∧
        -maxInteger - 1 ≤ signed (decimal digits) ∧ signed (decimal digits) ≤ maxInteger then
      some (.integer (signed (decimal digits)))
    else (magnitudeOf 10 10 101 isDigit digits).map fun x => .float negative (toDouble x)

/-- How often a loop from 1 to the floor of a number runs; `none` for a number below zero. -/
def LuaNumber.rounds : LuaNumber → Option Nat
  | .integer n => if n < 0 then none else some n.toNat
  | .float negative none => if negative then none else some maxInteger.toNat
  | .float negative (some x) =>
    if negative ∧ x ≠ 0 then none else some (min ⌊x⌋ maxInteger).toNat

end Numbers

end NuzlockeSolver.Emulator
