import ContainerApplets.Number.Binary64

/-!
The two written forms of a binary64 number: the scalar of a document, which has an exponent when
the number is large or small, and the form inside a message, which never has one.
-/

namespace ContainerApplets.Binary64

def zeros (count : Int) : List Char := List.replicate count.toNat '0'

/-- Digits without an exponent; a whole number ends in `.0`. -/
def positional (decimal : Decimal) : List Char :=
  let digits := Nat.toDigits 10 decimal.digits
  let point : Int := digits.length + decimal.power
  if 0 ≤ decimal.power then digits ++ zeros decimal.power ++ ['.', '0']
  else if 0 < point then digits.take point.toNat ++ '.' :: digits.drop point.toNat
  else '0' :: '.' :: zeros (-point) ++ digits

/-- One digit before the point and the others after it. -/
def scientific (decimal : Decimal) : List Char :=
  let digits := Nat.toDigits 10 decimal.digits
  let fraction := if digits.length = 1 then [] else '.' :: digits.drop 1
  digits.take 1 ++ fraction ++ 'e' :: (toString (digits.length + decimal.power - 1)).toList

/-- A number from `1e-5` up to below `1e16` has no exponent. -/
def isPositional (decimal : Decimal) : Bool :=
  let point : Int := (Nat.toDigits 10 decimal.digits).length + decimal.power
  decimal.digits = 0 || (-5 < point && point ≤ 16)

def signed (negative : Bool) (text : List Char) : String :=
  String.ofList (if negative then '-' :: text else text)

/-- The number as a scalar of a document. -/
def scalarText : Binary64 → String
  | .finite negative mantissa exponent =>
      let decimal := shortest mantissa exponent
      signed negative (if isPositional decimal then positional decimal else scientific decimal)
  | .infinite negative => signed negative ".inf".toList
  | .undefined => ".nan"

def messageText : Binary64 → String
  | .finite negative mantissa exponent => signed negative (positional (shortest mantissa exponent))
  | .infinite negative => signed negative "inf".toList
  | .undefined => "NaN"

end ContainerApplets.Binary64
