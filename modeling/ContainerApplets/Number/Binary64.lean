/-!
Numbers in the binary64 format, by their mantissa and exponent. A decimal text is read to the
nearest such number, ties to the even mantissa; a number is written with the fewest digits that
read back to it. All arithmetic is exact.
-/

namespace ContainerApplets

/-- A finite number is its mantissa times a power of two. The mantissa is below `2 ^ 53`, and is
at least `2 ^ 52` unless the exponent is the least one, `-1074`. -/
inductive Binary64
  | finite (negative : Bool) (mantissa : Nat) (exponent : Int)
  | infinite (negative : Bool)
  | undefined
  deriving DecidableEq, Inhabited

namespace Binary64

def leastExponent : Int := -1074

def greatestExponent : Int := 971

/-- The least mantissa of 53 binary digits. -/
def leastMantissa : Nat := Nat.pow 2 52

/-- A fraction as `base ^ power` times what is left of `numerator / denominator`. -/
def scaleDown (numerator denominator base : Nat) (power : Int) : Nat × Nat :=
  (numerator * base.pow (-power).toNat, denominator * base.pow power.toNat)

/-- The nearest integer to a fraction; a half goes to the even neighbour. -/
def roundHalfEven (numerator denominator : Nat) : Nat :=
  let quotient := numerator / denominator
  let twice := 2 * (numerator % denominator)
  if twice < denominator then quotient
  else if twice = denominator then quotient + quotient % 2
  else quotient + 1

/-- The exponent at which the integer part of the fraction has 53 binary digits, but never less
than the least exponent. -/
def exponentOf (numerator denominator : Nat) : Int :=
  let guess : Int := (Nat.log2 numerator : Int) - (Nat.log2 denominator : Int) - 52
  let scaled := scaleDown numerator denominator 2 guess
  max leastExponent (if scaled.1 / scaled.2 < leastMantissa then guess - 1 else guess)

def ofFraction (negative : Bool) (numerator denominator : Nat) : Binary64 :=
  if numerator = 0 then .finite negative 0 leastExponent
  else
    let exponent := exponentOf numerator denominator
    let scaled := scaleDown numerator denominator 2 exponent
    let mantissa := roundHalfEven scaled.1 scaled.2
    let carried := mantissa = 2 * leastMantissa
    let final := if carried then exponent + 1 else exponent
    if final > greatestExponent then .infinite negative
    else .finite negative (if carried then leastMantissa else mantissa) final

def digitCount (value : Nat) : Nat := (Nat.toDigits 10 value).length

/-- The number nearest to `digits * 10 ^ power`. What is far above or far below all numbers is
answered without computing the power. -/
def ofDecimal (negative : Bool) (digits : Nat) (power : Int) : Binary64 :=
  let magnitude : Int := digitCount digits + power
  if digits = 0 ∨ magnitude < -400 then .finite negative 0 leastExponent
  else if magnitude > 400 then .infinite negative
  else
    let scaled := scaleDown digits 1 10 (-power)
    ofFraction negative scaled.1 scaled.2

/-! ### The fewest digits -/

structure Decimal where
  digits : Nat
  power : Int
  deriving DecidableEq, Inhabited

/-- Compares `left * 10 ^ power` with `right * 2 ^ exponent`. -/
def compareScaled (left : Nat) (power : Int) (right : Nat) (exponent : Int) : Ordering :=
  compare (left * Nat.pow 10 power.toNat * Nat.pow 2 (-exponent).toNat)
    (right * Nat.pow 2 exponent.toNat * Nat.pow 10 (-power).toNat)

/-- The numbers that read back as `mantissa * 2 ^ exponent`, in quarters of its last place. The
ends belong to it when the mantissa is even. -/
def readsBack (mantissa : Nat) (exponent : Int) (decimal : Decimal) : Bool :=
  let below := if mantissa = leastMantissa ∧ exponent > leastExponent then 1 else 2
  let low := compareScaled decimal.digits decimal.power (4 * mantissa - below) (exponent - 2)
  let high := compareScaled decimal.digits decimal.power (4 * mantissa + 2) (exponent - 2)
  if mantissa % 2 = 0 then low != .lt && high != .gt else low == .gt && high == .lt

/-- Of the two neighbours of the number on the grid of this power, the one that reads back; of
both the nearer, and of two at one distance the even one. -/
def onGrid (mantissa : Nat) (exponent : Int) (power : Int) : Option Decimal :=
  let twos := scaleDown mantissa 1 2 (-exponent)
  let scaled := scaleDown twos.1 twos.2 10 power
  let lower : Decimal := ⟨scaled.1 / scaled.2, power⟩
  let upper : Decimal := ⟨scaled.1 / scaled.2 + 1, power⟩
  let nearest : Decimal := ⟨roundHalfEven scaled.1 scaled.2, power⟩
  if readsBack mantissa exponent nearest then some nearest
  else if readsBack mantissa exponent lower then some lower
  else if readsBack mantissa exponent upper then some upper
  else none

/-- Seventeen digits are always enough, so the search ends there. -/
def searchGrids (mantissa : Nat) (exponent power : Int) : (left : Nat) → Decimal
  | 0 => ⟨0, 0⟩
  | left + 1 =>
      match onGrid mantissa exponent power with
      | some found => found
      | none => searchGrids mantissa exponent (power - 1) left

def dropZeros (digits : Nat) (power : Int) : (left : Nat) → Decimal
  | 0 => ⟨digits, power⟩
  | left + 1 =>
      if digits ≠ 0 ∧ digits % 10 = 0 then dropZeros (digits / 10) (power + 1) left
      else ⟨digits, power⟩

/-- The decimal with the fewest digits that reads back as this number. -/
def shortest (mantissa : Nat) (exponent : Int) : Decimal :=
  if mantissa = 0 then ⟨0, 0⟩
  else
    let twos := scaleDown mantissa 1 2 (-exponent)
    let places : Int := (digitCount twos.1 : Int) - (digitCount twos.2 : Int)
    let found := searchGrids mantissa exponent (places + 1) 21
    dropZeros found.digits found.power 20

end Binary64

end ContainerApplets
