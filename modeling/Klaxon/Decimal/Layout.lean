import Klaxon.Decimal.Shortest

/-!
# Layouts of decimal numbers

A layout decides where digits are written positionally and where with an exponent, and whether a
whole number keeps a fraction. `Layout.write` writes the shortest digits of a finite double in a
layout.
-/

namespace Klaxon.Decimal

/-- How the digits of a number are laid out. -/
structure Layout where
  /-- The exponents of the first digit that are written positionally, from the first up to but not
  including the second; every exponent if there is none. -/
  positional : Option (Int × Int)
  /-- Whether a whole number is written with the fraction `.0`. -/
  wholeFraction : Bool

/-- The layout of numbers in documents: an exponent outside `1e-5 ≤ |x| < 1e16`, and always a
fraction. -/
def Layout.document : Layout := ⟨some (-5, 16), true⟩

/-- The layout of numbers in messages: never an exponent, and a fraction only where there is one. -/
def Layout.plain : Layout := ⟨none, false⟩

/-- Writes digits whose first one has the given exponent positionally. -/
def Layout.positionalText (layout : Layout) (digits : List Char) (exponent : Int) : List Char :=
  let zeros (n : Nat) : List Char := List.replicate n '0'
  if exponent < 0 then '0' :: '.' :: zeros (-exponent - 1).toNat ++ digits
  else
    let places := exponent.toNat + 1
    if digits.length ≤ places then
      digits ++ zeros (places - digits.length) ++ (if layout.wholeFraction then ['.', '0'] else [])
    else digits.take places ++ '.' :: digits.drop places

/-- Writes digits with the exponent of the first one. -/
def exponentText (digits : List Char) (exponent : Int) : List Char :=
  let mantissa := match digits with
    | [] => []
    | [d] => [d]
    | d :: rest => d :: '.' :: rest
  let sign := if exponent < 0 then '-' else '+'
  mantissa ++ 'e' :: sign :: Nat.toDigits 10 exponent.natAbs

/-- Writes a double that is neither an infinity nor a NaN. -/
def Layout.write (layout : Layout) (f : Float) : String :=
  let binary := Binary.ofFloat f
  let sign := if signBit f then ['-'] else []
  let magnitude :=
    if binary.m = 0 then '0' :: (if layout.wholeFraction then ['.', '0'] else [])
    else
      let decimal := shortest binary
      let digits := Nat.toDigits 10 decimal.digits
      let exponent := decimal.exponent + digits.length - 1
      let positional := match layout.positional with
        | none => true
        | some (first, last) => first ≤ exponent && exponent < last
      if positional then layout.positionalText digits exponent else exponentText digits exponent
  String.ofList (sign ++ magnitude)

/-- Writes any double in a message. -/
def plainText (f : Float) : String :=
  if f.isNaN then "NaN"
  else if f.isInf then (if signBit f then "-inf" else "inf")
  else Layout.plain.write f

end Klaxon.Decimal
