import Liangshi.Wire.BigEndian

/-!
# MessagePack objects

The objects a MessagePack decoder produces, as the C++ library has them before its ext types: an
integer is `posInt` or `negInt` by sign, whatever width it was sent with, and text and binary
data are both `raw`.
-/

namespace MessagePack

open Wire

/-- A decoded MessagePack object.  `double` keeps the IEEE-754 bits and the entries of a `map`
alternate keys and values. -/
inductive Obj where
  | nil
  | boolean (value : Bool)
  | posInt (value : Nat)
  | negInt (value : Int)
  | double (bits : UInt64)
  | raw (bytes : Bytes)
  | array (items : List Obj)
  | map (entries : List Obj)
deriving Inhabited

/-- The object of an integer: the sign selects the constructor. -/
def Obj.ofInt (i : Int) : Obj :=
  if 0 ≤ i then .posInt i.toNat else .negInt i

/-- The object of a `width`-byte two's complement integer given by its unsigned value. -/
def Obj.ofSigned (width n : Nat) : Obj :=
  if 2 * n < 256 ^ width then .posInt n else .negInt ((n : Int) - (256 ^ width : Nat))

/-- The bits of the double a single precision number widens to; a signalling NaN is quieted. -/
def widenSingle (n : Nat) : UInt64 :=
  let sign := n / 2 ^ 31 % 2 * 2 ^ 63
  let exponent := n / 2 ^ 23 % 256
  let mantissa := n % 2 ^ 23
  if exponent = 255 then
    let quiet := if mantissa = 0 then 0 else mantissa % 2 ^ 22 + 2 ^ 22
    UInt64.ofNat (sign + 2047 * 2 ^ 52 + quiet * 2 ^ 29)
  else if exponent = 0 then
    if mantissa = 0 then
      UInt64.ofNat sign
    else
      let top := Nat.log2 mantissa
      UInt64.ofNat (sign + (top + 874) * 2 ^ 52 + (mantissa - 2 ^ top) * 2 ^ (52 - top))
  else
    UInt64.ofNat (sign + (exponent + 896) * 2 ^ 52 + mantissa * 2 ^ 29)

end MessagePack
