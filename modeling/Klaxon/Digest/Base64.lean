/-!
# Base 64

Three bytes are written as four characters; one or two bytes at the end are filled up with `=`. The
text is a third longer than the bytes (`length_base64Chars`).
-/

namespace Klaxon.Digest

/-- The character of a number below 64. -/
def base64Char (n : Nat) : Char :=
  if n < 26 then Char.ofNat ('A'.toNat + n)
  else if n < 52 then Char.ofNat ('a'.toNat + (n - 26))
  else if n < 62 then Char.ofNat ('0'.toNat + (n - 52))
  else if n = 62 then '+'
  else '/'

/-- Bytes in base 64. -/
def base64Chars : List UInt8 → List Char
  | [] => []
  | [a] =>
    let n := a.toNat * 65536
    [base64Char (n / 262144), base64Char (n / 4096 % 64), '=', '=']
  | [a, b] =>
    let n := a.toNat * 65536 + b.toNat * 256
    [base64Char (n / 262144), base64Char (n / 4096 % 64), base64Char (n / 64 % 64), '=']
  | a :: b :: c :: rest =>
    let n := a.toNat * 65536 + b.toNat * 256 + c.toNat
    base64Char (n / 262144) :: base64Char (n / 4096 % 64) :: base64Char (n / 64 % 64) ::
      base64Char (n % 64) :: base64Chars rest

/-- Bytes in base 64. -/
def base64 (bytes : List UInt8) : String := String.ofList (base64Chars bytes)

/-- Four characters stand for three bytes begun. -/
theorem length_base64Chars (bytes : List UInt8) :
    (base64Chars bytes).length = (bytes.length + 2) / 3 * 4 := by
  fun_induction base64Chars bytes with
  | case1 => rfl
  | case2 => simp
  | case3 => simp
  | case4 a b c rest n ih =>
    simp only [List.length_cons, ih]
    omega

end Klaxon.Digest
