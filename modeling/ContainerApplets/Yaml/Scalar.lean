import ContainerApplets.Yaml.Fault
import ContainerApplets.Yaml.Tree

/-!
The value of a scalar. A plain scalar is null, a boolean, an integer or a float if its text has
the form of one, tried in this order, and a text otherwise. A tag can demand a type.
-/

namespace ContainerApplets.Yaml.Scalar

def isNull (text : List Char) : Bool :=
  [['n', 'u', 'l', 'l'], ['N', 'u', 'l', 'l'], ['N', 'U', 'L', 'L'], ['~']].contains text

def bool? (text : List Char) : Option Bool :=
  if ["true", "True", "TRUE"].contains (String.ofList text) then some true
  else if ["false", "False", "FALSE"].contains (String.ofList text) then some false
  else none

/-! ### Integers -/

def digitValue? (char : Char) : Option Nat :=
  if char.isDigit then some (char.toNat - '0'.toNat)
  else if 'a' ≤ char ∧ char ≤ 'f' then some (char.toNat - 'a'.toNat + 10)
  else if 'A' ≤ char ∧ char ≤ 'F' then some (char.toNat - 'A'.toNat + 10)
  else none

/-- Digits of a base, at least one. -/
def digits? (base : Nat) (text : List Char) : Option Nat :=
  if text.isEmpty then none
  else text.foldlM (fun value char => do
    let digit ← digitValue? char
    if digit < base then some (value * base + digit) else none) 0

def startsWithSign : List Char → Bool
  | '+' :: _ | '-' :: _ => true
  | _ => false

def dropPlus : List Char → List Char
  | '+' :: rest => rest
  | text => text

/-- More than one digit and a zero in front: a text by convention, not a number. -/
def hasLeadingZero (text : List Char) : Bool :=
  let body := match text with
    | '+' :: rest | '-' :: rest => rest
    | _ => text
  match body with
  | '0' :: next :: rest => (next :: rest).all Char.isDigit
  | _ => false

/-- Digits of the base that a leading mark names. -/
def based? : List Char → Option Nat
  | '0' :: 'x' :: rest => digits? 16 rest
  | '0' :: 'o' :: rest => digits? 8 rest
  | '0' :: 'b' :: rest => digits? 2 rest
  | _ => none

def integer? (text : List Char) : Option Int :=
  if hasLeadingZero text then none
  else
    let magnitude? := fun (body : List Char) => based? body <|> digits? 10 body
    match text with
    | '-' :: rest => (magnitude? rest).map fun value => -(value : Int)
    | _ => (magnitude? (dropPlus text)).map fun value => (value : Int)

def smallest : Int := -9223372036854775808

def largest : Int := 18446744073709551615

/-- Beyond these bounds digits are read as a float. -/
def widestSmallest : Int := -170141183460469231731687303715884105728

def widestLargest : Int := 340282366920938463463374607431768211455

/-! ### Floats -/

/-- The exponent of a decimal, with its sign. -/
def exponent? : List Char → Option Int
  | [] => some 0
  | mark :: rest =>
      if mark = 'e' ∨ mark = 'E' then
        match rest with
        | '-' :: digits => (digits? 10 digits).map fun value => -(value : Int)
        | '+' :: digits => (digits? 10 digits).map fun value => (value : Int)
        | digits => (digits? 10 digits).map fun value => (value : Int)
      else none

/-- Digits around an optional point, at least one of them, and an optional exponent. -/
def decimal? (negative : Bool) (text : List Char) : Option Binary64 :=
  let whole := text.takeWhile Char.isDigit
  let afterWhole := text.dropWhile Char.isDigit
  let (fraction, afterFraction) := match afterWhole with
    | '.' :: rest => (rest.takeWhile Char.isDigit, rest.dropWhile Char.isDigit)
    | rest => ([], rest)
  if whole.isEmpty ∧ fraction.isEmpty then none
  else do
    let exponent ← exponent? afterFraction
    let digits ← digits? 10 (whole ++ fraction)
    some (.ofDecimal negative digits (exponent - fraction.length))

def finite? : Binary64 → Option Binary64
  | .finite negative mantissa exponent => some (.finite negative mantissa exponent)
  | _ => none

def float? (text : List Char) : Option Binary64 :=
  let unsigned := dropPlus text
  if unsigned.length < text.length ∧ startsWithSign unsigned then none
  else if [".inf", ".Inf", ".INF"].contains (String.ofList unsigned) then some (.infinite false)
  else if ["-.inf", "-.Inf", "-.INF"].contains (String.ofList text) then some (.infinite true)
  else if [".nan", ".NaN", ".NAN"].contains (String.ofList text) then some .undefined
  else match unsigned with
    | '-' :: rest => (decimal? true rest).bind finite?
    | rest => (decimal? false rest).bind finite?

/-! ### Values -/

/-- An integer that is too large for a document, but not so large that it is a float, is a
fault. -/
def number? (text : List Char) : Except Fault (Option Tree) :=
  match integer? text with
  | some value =>
      if smallest ≤ value ∧ value ≤ largest then .ok (some (.int value))
      else if widestSmallest ≤ value ∧ value ≤ widestLargest then .error .integerRange
      else .ok none
  | none => .ok none

def plain (text : String) : Except Fault Tree := do
  let chars := text.toList
  if chars.isEmpty || isNull chars then return .null
  if let some value := bool? chars then return .bool value
  if let some value ← number? chars then return value
  if hasLeadingZero chars then return .text text
  match float? chars with
  | some value => return .float value
  | none => return .text text

def standardTag (name : String) : String := "tag:yaml.org,2002:" ++ name

def isLocalTag (tag : String) : Bool := tag.toList.head? = some '!'

def demand (value : Option Tree) : Except Fault Tree :=
  match value with
  | some value => .ok value
  | none => .error .forcedType

/-- The value of a scalar with a tag that is not the document's own, or with none. -/
def value (tag : Option String) (text : String) (isPlain : Bool) : Except Fault Tree :=
  let chars := text.toList
  let untagged := if isPlain then plain text else .ok (.text text)
  match tag with
  | none => untagged
  | some tag =>
      if tag = standardTag "bool" then demand ((bool? chars).map .bool)
      else if tag = standardTag "int" then do demand (← number? chars)
      else if tag = standardTag "float" then demand ((float? chars).map .float)
      else if tag = standardTag "null" then demand (if isNull chars then some .null else none)
      else if isLocalTag tag then untagged
      else .ok (.text text)

end ContainerApplets.Yaml.Scalar
