import M68k.OperandSize
import M68k.Proofs.SignRules

/-!
# Longs of integers

A long holds an integer modulo 2^32.  Extending, joining and shifting operands
is arithmetic on the integers that they stand for.
-/

namespace M68k

theorem toNat_ofInt (value : Int) :
    ((UInt32.ofInt value).toNat : Int) = value % (2 ^ 32 : Nat) := by
  rw [UInt32.ofInt, UInt32.toNat_ofNat']
  omega

/-- What a long holds is known modulo 2^32. -/
theorem ofInt_eq_of_modEq {value : Int} {long : UInt32}
    (congruent : value ≡ long.toNat [ZMOD (2 ^ 32 : Nat)]) :
    UInt32.ofInt value = long := by
  have stored := toNat_ofInt value
  have bounded := long.toNat_lt
  have same : _ % _ = _ % _ := congruent
  rw [← UInt32.toNat_inj]
  omega

theorem ofInt_toNat (value : UInt32) : UInt32.ofInt value.toNat = value :=
  ofInt_eq_of_modEq rfl

/-- A long holds the integer that it stands for. -/
theorem ofInt_read (reading : Signedness) (value : UInt32) :
    UInt32.ofInt (reading.read 32 value.toNat) = value :=
  ofInt_eq_of_modEq (reading.read_modEq 32 value.toNat)

theorem ofBitVec_ofInt (value : Int) :
    UInt32.ofBitVec (BitVec.ofInt 32 value) = UInt32.ofInt value := by
  have bits := BitVec.toNat_ofInt (n := 32) value
  have long := toNat_ofInt value
  rw [← UInt32.toNat_inj, UInt32.toNat_ofBitVec]
  omega

/-- A signed operand keeps its integer when it is extended. -/
theorem ofBitVec_signExtend {width : Nat} (bits : BitVec width) :
    UInt32.ofBitVec (bits.signExtend 32) =
      UInt32.ofInt (Signedness.signed.read width bits.toNat) := by
  rw [← ofBitVec_ofInt, ← Signedness.integerOf_eq_read]
  rfl

theorem signExtendByte_eq (value : UInt8) :
    signExtendByte value =
      UInt32.ofInt (Signedness.signed.read 8 value.toNat) :=
  ofBitVec_signExtend value.toBitVec

theorem signExtendWord_eq (value : UInt16) :
    signExtendWord value =
      UInt32.ofInt (Signedness.signed.read 16 value.toNat) :=
  ofBitVec_signExtend value.toBitVec

theorem joinWords_eq (high low : UInt16) :
    joinWords high low =
      UInt32.ofInt (high.toNat * 2 ^ 16 + low.toNat) := by
  refine (ofInt_eq_of_modEq ?_).symm
  rw [toNat_joinWords]
  rfl

/-- A shift to the left scales by a power of two. -/
theorem ofInt_shiftLeft (value : Int) {places : Nat} (few : places < 32) :
    UInt32.ofInt value <<< UInt32.ofNat places =
      UInt32.ofInt (value * 2 ^ places) := by
  refine (ofInt_eq_of_modEq ?_).symm
  have stored : value ≡ (UInt32.ofInt value).toNat [ZMOD (2 ^ 32 : Nat)] := by
    rw [toNat_ofInt]
    exact (Int.mod_modEq value _).symm
  have shift : (UInt32.ofNat places).toNat % 32 = places := by
    rw [UInt32.toNat_ofNat']
    omega
  rw [UInt32.toNat_shiftLeft, shift, Nat.shiftLeft_eq, Int.natCast_mod,
    Nat.cast_mul, Nat.cast_pow, Nat.cast_ofNat]
  exact (stored.mul_right _).trans (Int.mod_modEq _ _).symm

end M68k
