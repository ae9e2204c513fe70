/-!
# Words and their parts

Bytes, words and longs are unsigned integers of 8, 16 and 32 bits, written with
the most significant byte first.  This module takes them apart and puts them
together, and extends signed values.
-/

namespace M68k

def joinBytes (high low : UInt8) : UInt16 :=
  (high.toUInt16 <<< 8) ||| low.toUInt16

def joinWords (high low : UInt16) : UInt32 :=
  (high.toUInt32 <<< 16) ||| low.toUInt32

def highByte (value : UInt16) : UInt8 :=
  (value >>> 8).toUInt8

def highWord (value : UInt32) : UInt16 :=
  (value >>> 16).toUInt16

def bytesOfWord (value : UInt16) : List UInt8 :=
  [highByte value, value.toUInt8]

def bytesOfLong (value : UInt32) : List UInt8 :=
  bytesOfWord (highWord value) ++ bytesOfWord value.toUInt16

/-- The long whose last bytes are the given ones. -/
def longOfBytes (bytes : List UInt8) : UInt32 :=
  bytes.foldl (fun value byte => (value <<< 8) ||| byte.toUInt32) 0

/-- The 32-bit value with the same two's complement meaning as a byte. -/
def signExtendByte (value : UInt8) : UInt32 :=
  UInt32.ofBitVec (value.toBitVec.signExtend 32)

/-- The 32-bit value with the same two's complement meaning as a word. -/
def signExtendWord (value : UInt16) : UInt32 :=
  UInt32.ofBitVec (value.toBitVec.signExtend 32)

def bitAt (word : UInt16) (position : Nat) : Bool :=
  word.toNat.testBit position

-- The literals of two-bit and three-bit fields need these.
instance neZero_four : @NeZero Nat Zero.ofOfNat0 4 :=
  ⟨by decide⟩

instance neZero_eight : @NeZero Nat Zero.ofOfNat0 8 :=
  ⟨by decide⟩

/-- The two bits of a word from a position on. -/
def pairAt (word : UInt16) (position : Nat) : Fin 4 :=
  Fin.ofNat 4 (word.toNat >>> position)

/-- The three bits of a word from a position on. -/
def fieldAt (word : UInt16) (position : Nat) : Fin 8 :=
  Fin.ofNat 8 (word.toNat >>> position)

/-! ### Parts and wholes -/

theorem toNat_joinBytes (high low : UInt8) :
    (joinBytes high low).toNat = high.toNat * 256 + low.toNat := by
  have hhigh := high.toNat_lt
  have hlow := low.toNat_lt
  have eight : (8 : UInt16).toNat % 16 = 8 := rfl
  simp only [joinBytes, UInt16.toNat_or, UInt16.toNat_shiftLeft,
    UInt8.toNat_toUInt16]
  rw [eight, Nat.mod_eq_of_lt (by rw [Nat.shiftLeft_eq]; omega),
    ← Nat.shiftLeft_add_eq_or_of_lt (by simpa using hlow), Nat.shiftLeft_eq]

theorem toNat_highByte (value : UInt16) :
    (highByte value).toNat = value.toNat / 256 := by
  have hvalue := value.toNat_lt
  have eight : (8 : UInt16).toNat % 16 = 8 := rfl
  simp only [highByte, UInt16.toNat_toUInt8, UInt16.toNat_shiftRight]
  rw [eight, Nat.shiftRight_eq_div_pow]
  omega

theorem joinBytes_highByte (value : UInt16) :
    joinBytes (highByte value) value.toUInt8 = value := by
  apply UInt16.toNat_inj.1
  rw [toNat_joinBytes, toNat_highByte, UInt16.toNat_toUInt8]
  omega

theorem toNat_joinWords (high low : UInt16) :
    (joinWords high low).toNat = high.toNat * 65536 + low.toNat := by
  have hhigh := high.toNat_lt
  have hlow := low.toNat_lt
  have sixteen : (16 : UInt32).toNat % 32 = 16 := rfl
  simp only [joinWords, UInt32.toNat_or, UInt32.toNat_shiftLeft,
    UInt16.toNat_toUInt32]
  rw [sixteen, Nat.mod_eq_of_lt (by rw [Nat.shiftLeft_eq]; omega),
    ← Nat.shiftLeft_add_eq_or_of_lt (by simpa using hlow), Nat.shiftLeft_eq]

theorem toNat_highWord (value : UInt32) :
    (highWord value).toNat = value.toNat / 65536 := by
  have hvalue := value.toNat_lt
  have sixteen : (16 : UInt32).toNat % 32 = 16 := rfl
  simp only [highWord, UInt32.toNat_toUInt16, UInt32.toNat_shiftRight]
  rw [sixteen, Nat.shiftRight_eq_div_pow]
  omega

theorem joinWords_highWord (value : UInt32) :
    joinWords (highWord value) value.toUInt16 = value := by
  apply UInt32.toNat_inj.1
  rw [toNat_joinWords, toNat_highWord, UInt32.toNat_toUInt16]
  omega

end M68k
