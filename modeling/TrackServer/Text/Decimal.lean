import TrackServer.Text.Ascii

/-!
# Text/Decimal — unsigned numbers in decimal digits

A number on the wire or on the command line is an optional plus sign and one or more digits; leading
zeros are allowed.  `read` takes the exclusive bound that the value has to stay below, and reports
the first fault from the left: a byte that is no digit, or a digit that carries the value to the
bound.
-/

namespace TrackServer.Decimal

/-- Why a text is no number below the bound. -/
inductive Fault
  | empty
  | invalidDigit
  | tooLarge
  deriving DecidableEq, Repr

/-- The wording of a fault. -/
def Fault.message : Fault → String
  | .empty => "cannot parse integer from empty string"
  | .invalidDigit => "invalid digit found in string"
  | .tooLarge => "number too large to fit in target type"

/-- The value of one digit. -/
def digit? (b : UInt8) : Option Nat :=
  if 0x30 ≤ b ∧ b ≤ 0x39 then some (b.toNat - 0x30) else none

/-- Read digits on top of the value read so far. -/
def readDigits (bound : Nat) : Nat → List UInt8 → Except Fault Nat
  | value, [] => .ok value
  | value, b :: rest =>
    match digit? b with
    | none => .error .invalidDigit
    | some d =>
      if value * 10 + d < bound then readDigits bound (value * 10 + d) rest else .error .tooLarge

/-- The plus sign. -/
def plus : UInt8 := 0x2B

/-- A text without one leading plus sign. -/
def dropPlus : List UInt8 → List UInt8
  | [] => []
  | b :: rest => if b = plus then rest else b :: rest

/-- **Read an unsigned number below `bound`**: an optional plus sign and at least one digit. -/
def read (bound : Nat) (text : List UInt8) : Except Fault Nat :=
  if text = [] then .error .empty
  else if dropPlus text = [] then .error .invalidDigit
  else readDigits bound 0 (dropPlus text)

/-- The number a text spells below `bound`, if it does. -/
def read? (bound : Nat) (text : List UInt8) : Option Nat :=
  (read bound text).toOption

end TrackServer.Decimal
