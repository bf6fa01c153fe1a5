import TrackServer.Yaml.Document

/-!
# Yaml/Integer — scalars that write unsigned numbers

A plain scalar writes a number in decimal digits without leading zeros, or in hexadecimal, octal or
binary digits behind `0x`, `0o` or `0b`; one plus sign may stand in front.  A literal block that is
tagged as an integer does so too.  Everything else is text.
-/

namespace TrackServer.Yaml

/-- The tag of integers. -/
def integerTag : TagText :=
  .ofChars "tag:yaml.org,2002:int".toList

/-- Whether the text of a scalar may be read as a number. -/
def Scalar.mayBeInteger (scalar : Scalar) : Bool :=
  match scalar.style with
  | .plain => true
  | .literal => scalar.tag == some integerTag
  | _ => false

/-- The value of digits in a base below a bound; at least one digit. -/
def radixValue? (base bound : Nat) (digits : List Char) : Option Nat :=
  let extend (value : Nat) (c : Char) : Option Nat :=
    ((hexValue? c).filter (· < base)).map (value * base + ·)
  if digits = [] then none else (digits.foldlM extend 0).filter (· < bound)

/-- Whether a text is digits behind a zero, which makes it no number. -/
def isZeroPadded : List Char → Bool
  | '0' :: c :: rest => (c :: rest).all Char.isDigit
  | _ => false

/-- A text without one leading plus sign. -/
def dropPlus : List Char → List Char
  | '+' :: rest => rest
  | text => text

/-- The number below a bound that a text writes, if it writes one. -/
def unsigned? (bound : Nat) (text : List Char) : Option Nat :=
  match dropPlus text with
  | '0' :: 'x' :: digits => radixValue? 16 bound digits
  | '0' :: 'o' :: digits => radixValue? 8 bound digits
  | '0' :: 'b' :: digits => radixValue? 2 bound digits
  | digits => if isZeroPadded digits then none else radixValue? 10 bound digits

/-- **The number below a bound that a scalar writes**, if it writes one. -/
def Scalar.unsigned? (scalar : Scalar) (bound : Nat) : Option Nat :=
  if scalar.mayBeInteger then Yaml.unsigned? bound scalar.text else none

end TrackServer.Yaml
