import PklAnalysis.Text.Blank

/-!
Numbers as written in source text.
-/

namespace PklAnalysis.Text

def digitValue? (c : Char) : Option Nat :=
  if '0' ≤ c && c ≤ '9' then some (c.toNat - '0'.toNat)
  else if 'a' ≤ c && c ≤ 'f' then some (c.toNat - 'a'.toNat + 10)
  else if 'A' ≤ c && c ≤ 'F' then some (c.toNat - 'A'.toNat + 10)
  else none

/-- The number that digits of a base stand for. There must be a digit. -/
def digitsValue? (base : Nat) (chars : List Char) : Option Nat :=
  if chars.isEmpty then none
  else
    chars.foldlM
      (fun value c => do
        let digit ← digitValue? c
        if digit < base then some (value * base + digit) else none)
      0

/-- An unsigned number of a base at most `limit`; a plus sign may stand before
it. -/
def unsigned? (base limit : Nat) (chars : List Char) : Option Nat := do
  let digits :=
    match chars with
    | '+' :: rest => rest
    | _ => chars
  let value ← digitsValue? base digits
  if value ≤ limit then some value else none

def maxInt : Nat := 0x7FFFFFFFFFFFFFFF

/-- The value of a whole number in base sixteen, two, eight or ten, if it is not
too large. Underscores do not count. -/
def intValue? (text : String) : Option Nat := do
  let value ←
    match text.toList.filter (· != '_') with
    | '0' :: c :: digits =>
        if c = 'x' || c = 'X' then digitsValue? 16 digits
        else if c = 'b' || c = 'B' then digitsValue? 2 digits
        else if c = 'o' || c = 'O' then digitsValue? 8 digits
        else digitsValue? 10 (c :: digits)
    | digits => digitsValue? 10 digits
  if value ≤ maxInt then some value else none

/-- A decimal number `mantissa * 10 ^ exponent`. -/
structure Decimal where
  mantissa : Nat
  exponent : Int
deriving DecidableEq, Repr

namespace Decimal

def exponent? : List Char → Option Int
  | '+' :: digits => (digitsValue? 10 digits).map Int.ofNat
  | '-' :: digits => (digitsValue? 10 digits).map fun value => -Int.ofNat value
  | digits => (digitsValue? 10 digits).map Int.ofNat

/-- Reads digits with a fraction, a power of ten, or both. Underscores do not
count. -/
def ofText? (text : String) : Option Decimal := do
  let chars := text.toList.filter (· != '_')
  let isLetter := fun c => c = 'e' || c = 'E'
  let number := chars.takeWhile (!isLetter ·)
  let power ←
    match chars.dropWhile (!isLetter ·) with
    | [] => some 0
    | _ :: rest => exponent? rest
  let whole := number.takeWhile (· != '.')
  let fraction := (number.dropWhile (· != '.')).drop 1
  let mantissa ← digitsValue? 10 (whole ++ fraction)
  return { mantissa, exponent := power - fraction.length }

/-- The quotient rounded to the nearest whole number; of two equally near, to
the even one. -/
def roundDiv (num den : Nat) : Nat :=
  let quotient := num / den
  let twice := 2 * (num % den)
  if den < twice || (twice = den && quotient % 2 = 1) then quotient + 1 else
    quotient

/-- The largest whole number `k` with `2 ^ k * den ≤ num`, for positive
numbers. -/
def quotientLog (num den : Nat) : Int :=
  let guess : Int := (num.log2 : Int) - den.log2
  let fits :=
    if 0 ≤ guess then den <<< guess.toNat ≤ num else den ≤
      num <<< (-guess).toNat
  if fits then guess else guess - 1

def infinityBits : Nat := 0x7FF <<< 52

/-- The bits of the floating-point number nearest to a positive quotient. The
significand has 53 bits, fewer where the exponent is smallest; rounding up to
the next power of two carries into the exponent, and beyond the largest exponent
stands infinity. -/
def quotientBits (num den : Nat) : Nat :=
  let exponent := max (quotientLog num den - 52) (-1074)
  let significand :=
    if 0 ≤ exponent then roundDiv num (den <<< exponent.toNat)
    else roundDiv (num <<< (-exponent).toNat) den
  min (((exponent + 1074).toNat <<< 52) + significand) infinityBits

/-- The bits of the nearest floating-point number. Powers of ten far beyond its
range are not computed. -/
def toBits (decimal : Decimal) : Nat :=
  let magnitude := decimal.exponent + (Nat.toDigits 10 decimal.mantissa).length
  if decimal.mantissa = 0 || magnitude < -400 then 0
  else if 400 < magnitude then infinityBits
  else if 0 ≤ decimal.exponent then
    quotientBits (decimal.mantissa * Nat.pow 10 decimal.exponent.toNat) 1
  else
    quotientBits decimal.mantissa (Nat.pow 10 (-decimal.exponent).toNat)

end Decimal

end PklAnalysis.Text
