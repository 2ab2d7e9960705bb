import Contour.Double.Parts
import Contour.Decimal.Basic
import Contour.Text.Blank
import Contour.Text.Digit

/-!
# Reading decimal text

A number is read from text with blanks around it, an optional sign, and either digits with an
optional point and exponent or one of the words for an infinity or for no number. Digits of any
script are read, and single underscores may stand between two digits.

* `Decimal.withPlainDigits` — the text in digits and blanks of one kind.
* `Decimal.withoutUnderscores` — the text without the underscores between digits.
* `Decimal.Numeral.ofList?` — the parts of an unsigned number.
* `Decimal.read?` — the double nearest to the number that a text denotes.
-/

namespace Contour.Decimal

/-- Turns digits and blanks of every script into plain ones; no other characters beyond the
plain ones are part of a number. -/
def withPlainDigits : List Char → Option (List Char)
  | [] => some []
  | c :: rest =>
    let plain : Option Char :=
      if c.toNat < 128 then some c
      else if Text.isBlank c then some ' '
      else (Text.digitValue? c).map fun n => Char.ofNat (n + 48)
    plain.bind fun d => (withPlainDigits rest).map (d :: ·)

/-- Drops the underscores, each of which must stand between two digits. -/
def withoutUnderscores (previous : Char) : List Char → Option (List Char)
  | [] => if previous == '_' then none else some []
  | c :: rest =>
    if c == '_' then
      if previous.isDigit then withoutUnderscores c rest else none
    else if previous == '_' && !c.isDigit then none
    else (withoutUnderscores c rest).map (c :: ·)

def strip (cs : List Char) : List Char :=
  ((cs.dropWhile Text.isTypewriterBlank).reverse.dropWhile Text.isTypewriterBlank).reverse

/-- A leading sign, and the text after it. -/
def sign : List Char → Bool × List Char
  | '-' :: rest => (true, rest)
  | '+' :: rest => (false, rest)
  | cs => (false, cs)

def digitsValue (cs : List Char) : Nat :=
  cs.foldl (fun n c => 10 * n + (c.toNat - 48)) 0

/-- An unsigned number in decimal notation. -/
structure Numeral where
  whole : List Char
  fraction : List Char
  exponent : Int

/-- The exponent that ends a number: nothing, or a mark, an optional sign and digits. -/
def exponentOf? : List Char → Option Int
  | [] => some 0
  | c :: rest =>
    if c == 'e' || c == 'E' then
      let (negative, digits) := sign rest
      if digits ≠ [] ∧ digits.all Char.isDigit then
        some (if negative then -(digitsValue digits : Int) else digitsValue digits)
      else none
    else none

/-- The fraction after a point, if there is one, and the text after it. -/
def fractionOf : List Char → List Char × List Char
  | '.' :: rest => (rest.takeWhile Char.isDigit, rest.dropWhile Char.isDigit)
  | cs => ([], cs)

/-- Reads an unsigned number, which has a digit before or after the point. -/
def Numeral.ofList? (cs : List Char) : Option Numeral :=
  let whole := cs.takeWhile Char.isDigit
  let (fraction, rest) := fractionOf (cs.dropWhile Char.isDigit)
  if whole = [] ∧ fraction = [] then none
  else (exponentOf? rest).map fun exponent => ⟨whole, fraction, exponent⟩

/-- The double nearest to a number. Beyond 310 places it is an infinity and below the 330th place
zero, which keeps the powers of ten small. -/
def Numeral.toDouble (n : Numeral) : Float :=
  let coefficient := digitsValue (n.whole ++ n.fraction)
  let exponent := n.exponent - n.fraction.length
  let places := exponent + digitCount coefficient
  if coefficient = 0 ∨ places < -330 then 0.0
  else if 310 < places then Double.ofMagnitude false Double.infinityBits
  else if 0 ≤ exponent then Float.ofScientific coefficient false exponent.toNat
  else Float.ofScientific coefficient true (-exponent).toNat

/-- The magnitude that a text without sign denotes. -/
def magnitude? (cs : List Char) : Option Float :=
  let word := String.ofList (cs.map Char.toLower)
  if word == "inf" || word == "infinity" then some (Double.ofMagnitude false Double.infinityBits)
  else if word == "nan" then some (0.0 / 0.0)
  else (Numeral.ofList? cs).map Numeral.toDouble

/-- The double nearest to the number that a text denotes. -/
def read? (s : String) : Option Float := do
  let plain ← withPlainDigits s.toList
  let digits ← withoutUnderscores ' ' plain
  let (negative, magnitude) := sign (strip digits)
  let value ← magnitude? magnitude
  return if negative then -value else value

end Contour.Decimal
