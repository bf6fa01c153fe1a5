/-!
# Address — internet addresses and how they are written

An address of version 4 is four octets in decimal between dots, without leading zeros.  One of
version 6 is eight groups of 16 bits in hexadecimal between colons; one run of zero groups may be
left out as two colons, and the last two groups may be written as an address of version 4.

`Host.parse?` reads both.  `Host.render` writes the shortest form: digits without leading zeros, the
first of the longest runs of two or more zero groups left out, and the dotted form for the addresses
of version 4 that are mapped into version 6.
-/

namespace TrackServer

/-- The address of a machine. -/
inductive Host
  /-- Four octets. -/
  | v4 (octets : List Nat)
  /-- Eight groups of 16 bits. -/
  | v6 (groups : List Nat)
  deriving DecidableEq, Repr

/-- An address and a port. -/
structure SocketAddress where
  host : Host
  port : Nat
  deriving DecidableEq, Repr

namespace Host

/-! ## Reading -/

/-- The value of a digit in either case, in bases up to 16. -/
def digit? (base : Nat) (c : Char) : Option Nat :=
  let value :=
    if '0' ≤ c ∧ c ≤ '9' then c.toNat - '0'.toNat
    else if 'a' ≤ c ∧ c ≤ 'f' then c.toNat - 'a'.toNat + 10
    else if 'A' ≤ c ∧ c ≤ 'F' then c.toNat - 'A'.toNat + 10
    else base
  if value < base then some value else none

/-- The value of digits in a base, on top of the value read so far. -/
def digits? (base : Nat) : Nat → List Char → Option Nat
  | value, [] => some value
  | value, c :: rest =>
    match digit? base c with
    | none => none
    | some d => digits? base (value * base + d) rest

/-- One to three decimal digits of at most 255, without leading zeros. -/
def octet? (text : List Char) : Option Nat :=
  if text.length = 0 ∨ 3 < text.length ∨ (1 < text.length ∧ text.head? = some '0') then none
  else (digits? 10 0 text).filter (· ≤ 255)

/-- One to four hexadecimal digits. -/
def group? (text : List Char) : Option Nat :=
  if text.length = 0 ∨ 4 < text.length then none else digits? 16 0 text

/-- Four octets between dots. -/
def octets? (text : List Char) : Option (List Nat) :=
  let parts := text.splitOn '.'
  if parts.length = 4 then parts.mapM octet? else none

/-- Two octets in one group. -/
def pairOctets : List Nat → List Nat
  | a :: b :: rest => (a * 256 + b) :: pairOctets rest
  | _ => []

/-- Groups between colons, none for an empty text; the last may be four octets. -/
def groups? (text : List Char) : Option (List Nat) :=
  if text = [] then some []
  else
    let parts := text.splitOn ':'
    match parts.getLast?.bind octets? with
    | some octets => (parts.dropLast.mapM group?).map (· ++ pairOctets octets)
    | none => parts.mapM group?

/-- A text at its first two colons in a row. -/
def splitGap? : List Char → Option (List Char × List Char)
  | ':' :: ':' :: rest => some ([], rest)
  | c :: rest => (splitGap? rest).map fun (before, after) => (c :: before, after)
  | [] => none

/-- Eight groups, some zero ones perhaps left out.  What stands before the gap holds no octets. -/
def v6Groups? (text : List Char) : Option (List Nat) :=
  match splitGap? text with
  | none => (groups? text).filter (·.length = 8)
  | some (before, after) =>
    if before.contains '.' then none
    else
      match groups? before, groups? after with
      | some head, some tail =>
        if head.length + tail.length ≤ 7 then
          some (head ++ List.replicate (8 - head.length - tail.length) 0 ++ tail)
        else none
      | _, _ => none

/-- **The address a text writes**, if it writes one. -/
def parse? (text : String) : Option Host :=
  match octets? text.toList with
  | some octets => some (.v4 octets)
  | none => (v6Groups? text.toList).map .v6

/-! ## Writing -/

/-- The octets of an address of version 4 that is mapped into version 6. -/
def mapped? : List Nat → Option (List Nat)
  | [0, 0, 0, 0, 0, 0xFFFF, g, h] => some [g / 256, g % 256, h / 256, h % 256]
  | _ => none

/-- The number of zero groups in front. -/
def leadingZeros (groups : List Nat) : Nat :=
  (groups.takeWhile (· == 0)).length

/-- Place and length of the first of the longest runs of zero groups, from a place on. -/
def longestRun (place : Nat) : List Nat → Nat × Nat
  | [] => (place, 0)
  | g :: rest =>
    let here := leadingZeros (g :: rest)
    let later := longestRun (place + 1) rest
    if later.2 ≤ here then (place, here) else later

/-- Four octets between dots. -/
def renderOctets (octets : List Nat) : String :=
  ".".intercalate (octets.map toString)

/-- Groups between colons. -/
def renderGroups (groups : List Nat) : String :=
  ":".intercalate (groups.map fun g => String.ofList (Nat.toDigits 16 g))

/-- **The written form of an address.** -/
def render : Host → String
  | .v4 octets => renderOctets octets
  | .v6 groups =>
    match mapped? groups with
    | some octets => "::ffff:" ++ renderOctets octets
    | none =>
      let (place, length) := longestRun 0 groups
      if 2 ≤ length then
        renderGroups (groups.take place) ++ "::" ++ renderGroups (groups.drop (place + length))
      else renderGroups groups

end Host

/-- The written form of an address with its port; colons of the address are kept apart by
brackets. -/
def SocketAddress.render (address : SocketAddress) : String :=
  match address.host with
  | .v4 _ => address.host.render ++ ":" ++ toString address.port
  | .v6 _ => "[" ++ address.host.render ++ "]:" ++ toString address.port

end TrackServer
