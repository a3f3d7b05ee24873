/-
Binary64 numbers by their bits, and the two ways between them and 64-bit integers: to the nearest
number, a tie to the even one, and back by cutting off the fraction, held within the range.
-/
namespace ScriptHost.Number

def isNegative (bits : UInt64) : Bool :=
  bits.toNat >>> 63 = 1

/-- The eleven bits of the exponent. -/
def exponent (bits : UInt64) : Nat :=
  (bits.toNat >>> 52) % 0x800

/-- The fifty-two bits of the fraction. -/
def fraction (bits : UInt64) : Nat :=
  bits.toNat % 0x10000000000000

def isNaN (bits : UInt64) : Bool :=
  exponent bits = 0x7FF && fraction bits ≠ 0

def isZero (bits : UInt64) : Bool :=
  bits.toNat % 0x8000000000000000 = 0

/-- Whether two numbers are equal. The zeros are; what is no number equals nothing. -/
def same (a b : UInt64) : Bool :=
  !isNaN a && !isNaN b && (a = b || (isZero a && isZero b))

/-! ## From integers -/

/-- A number without its last bits, a half to the even neighbour. -/
def shiftRounded (n shift : Nat) : Nat :=
  let unit := 1 <<< shift
  let quotient := n >>> shift
  let double := 2 * (n % unit)
  if unit < double || (unit = double && quotient % 2 = 1) then quotient + 1 else quotient

/-- The bits of a natural number below `2 ^ 64`. A carry out of the fraction raises the exponent. -/
def ofMagnitude (n : Nat) : Nat :=
  if n = 0 then 0
  else
    let top := n.log2
    let significand := if top ≤ 52 then n <<< (52 - top) else shiftRounded n (top - 52)
    ((top + 1022) <<< 52) + significand

def ofInt (n : Int64) : UInt64 :=
  .ofNat (ofMagnitude n.toInt.natAbs + if n.toInt < 0 then 0x8000000000000000 else 0)

/-! ## To integers -/

/-- The integer part of a number's magnitude. -/
def magnitude (bits : UInt64) : Nat :=
  let e := exponent bits
  if e = 0 then 0
  else
    let significand := fraction bits + 0x10000000000000
    if e < 1075 then significand >>> (1075 - e) else significand <<< (e - 1075)

/-- The integer part of a number, the nearest bound outside the range, zero for no number. -/
def toInt (bits : UInt64) : Int64 :=
  if isNaN bits then 0
  else if isNegative bits then .ofInt (-(min (magnitude bits) 0x8000000000000000 : Nat))
  else .ofInt (min (magnitude bits) 0x7FFFFFFFFFFFFFFF : Nat)

end ScriptHost.Number
