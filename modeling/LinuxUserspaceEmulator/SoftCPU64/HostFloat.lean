import LinuxUserspaceEmulator.SoftCPU64.State

/-!
# Host floating point

The emulator computes floating point with the host's `float`, `double` and `long double`.
Values are bit patterns here, and the host's arithmetic and conversions are a parameter:
no result about the integer side of the CPU depends on them.
-/

namespace LUE

/-- The arithmetic of one floating-point format on bit patterns. -/
structure FloatOps (w : Nat) where
  add : BitVec w → BitVec w → BitVec w
  sub : BitVec w → BitVec w → BitVec w
  mul : BitVec w → BitVec w → BitVec w
  div : BitVec w → BitVec w → BitVec w
  sqrt : BitVec w → BitVec w
  lt : BitVec w → BitVec w → Bool
  isNaN : BitVec w → Bool
  isInf : BitVec w → Bool

/-- The functions of `<cmath>` that the x87 instructions use. -/
structure LongDoubleMath where
  log2 : LongDouble → LongDouble
  log10 : LongDouble → LongDouble
  log : LongDouble → LongDouble
  exp2 : LongDouble → LongDouble
  sin : LongDouble → LongDouble
  cos : LongDouble → LongDouble
  tan : LongDouble → LongDouble
  atan2 : LongDouble → LongDouble → LongDouble
  fmod : LongDouble → LongDouble → LongDouble
  remainder : LongDouble → LongDouble → LongDouble
  rint : LongDouble → LongDouble
  ldexp : LongDouble → U32 → LongDouble
  frexp : LongDouble → LongDouble × Int

/-- The host's floating point: three formats and the conversions between them. -/
structure HostFloat where
  single : FloatOps 32
  double : FloatOps 64
  extended : FloatOps 80
  math : LongDoubleMath
  singleToDouble : U32 → U64
  doubleToSingle : U64 → U32
  singleToExtended : U32 → LongDouble
  doubleToExtended : U64 → LongDouble
  extendedToSingle : LongDouble → U32
  extendedToDouble : LongDouble → U64
  intToSingle : Int → U32
  intToDouble : Int → U64
  intToExtended : Int → LongDouble
  /-- Casts to integers truncate, the `rint` functions round. -/
  singleToI32 : U32 → U32
  singleRintI32 : U32 → U32
  doubleToI32 : U64 → U32
  doubleRintI32 : U64 → U32
  extendedToI32 : LongDouble → U32
  extendedToI64 : LongDouble → U64
  extendedRintI64 : LongDouble → U64

namespace LongDouble

def zero : LongDouble := 0
def one : LongDouble := 0x3fff8000000000000000
def two : LongDouble := 0x40008000000000000000
def ten : LongDouble := 0x4002a000000000000000
def e : LongDouble := 0x4000adf85458a2bb4a9b
def pi : LongDouble := 0x4000c90fdaa22168c235

/-- Change the sign. -/
def neg (value : LongDouble) : LongDouble :=
  value ^^^ 0x80000000000000000000

/-- Clear the sign. -/
def abs (value : LongDouble) : LongDouble :=
  value &&& 0x7fffffffffffffffffff

/-- Comparison with zero: the sign does not matter. -/
def isZero (value : LongDouble) : Bool :=
  abs value == 0

end LongDouble

end LUE
