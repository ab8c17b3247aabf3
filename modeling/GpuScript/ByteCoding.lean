import GpuScript.Value

/-!
# Little-endian coding of values

A scalar is stored in as many bytes as its size, least significant first. Writing replaces the
start of some bytes and leaves the rest, reading looks at the start alone, and both need enough
bytes.
-/

namespace GpuScript

/-- The `w` bytes of a natural, least significant first; higher bits are dropped. -/
def littleEndian : Nat → Nat → List UInt8
  | 0, _ => []
  | w + 1, n => UInt8.ofNat (n % 256) :: littleEndian w (n / 256)

/-- The natural whose bytes these are, least significant first. -/
def ofLittleEndian : List UInt8 → Nat
  | [] => 0
  | b :: bs => b.toNat + 256 * ofLittleEndian bs

@[simp] theorem length_littleEndian (w n : Nat) : (littleEndian w n).length = w := by
  induction w generalizing n with
  | zero => rfl
  | succ w ih => simp [littleEndian, ih]

theorem ofLittleEndian_littleEndian (w n : Nat) :
    ofLittleEndian (littleEndian w n) = n % twoPow (8 * w) := by
  induction w generalizing n with
  | zero => simp [littleEndian, ofLittleEndian, twoPow, Nat.mod_one]
  | succ w ih =>
    have hpow : twoPow (8 * (w + 1)) = 256 * twoPow (8 * w) := by
      simp only [twoPow, Nat.pow_eq, Nat.mul_add, Nat.pow_add, Nat.mul_one]
      omega
    rw [hpow, Nat.mod_mul]
    simp [littleEndian, ofLittleEndian, ih]

theorem ofLittleEndian_lt (bytes : List UInt8) :
    ofLittleEndian bytes < twoPow (8 * bytes.length) := by
  induction bytes with
  | nil => exact twoPow_pos _
  | cons b bs ih =>
    have hb := b.toNat_lt
    simp only [twoPow, Nat.pow_eq] at ih
    simp only [ofLittleEndian, List.length_cons, twoPow, Nat.pow_eq, Nat.mul_add, Nat.pow_add,
      Nat.mul_one]
    omega

theorem littleEndian_ofLittleEndian (bytes : List UInt8) :
    littleEndian bytes.length (ofLittleEndian bytes) = bytes := by
  induction bytes with
  | nil => rfl
  | cons b bs ih =>
    have hb := b.toNat_lt
    rw [ofLittleEndian, List.length_cons, littleEndian, Nat.add_mul_mod_self_left,
      Nat.mod_eq_of_lt hb, Nat.add_mul_div_left _ _ (by decide), Nat.div_eq_of_lt hb, Nat.zero_add,
      ih, UInt8.ofNat_toNat]

def Scalar.read (s : Scalar) (bytes : List UInt8) : Except Fault (BitVec s.bits) :=
  if bytes.length < s.size then .error .outOfBytes
  else .ok (BitVec.ofNat s.bits (ofLittleEndian (bytes.take s.size)))

namespace Value

def encode (v : Value) (s : Scalar) : Except Fault (List UInt8) :=
  (v.bitsAs s).map fun b => littleEndian s.size b.toNat

/-- Stores the value as a kind of scalar at the start of some bytes. The result is the number of
bytes stored and all the bytes afterwards. -/
def write (v : Value) (s : Scalar) (bytes : List UInt8) : Except Fault (Nat × List UInt8) := do
  let encoded ← v.encode s
  if bytes.length < s.size then .error .outOfBytes
  else .ok (s.size, encoded ++ bytes.drop s.size)

def writeAt (v : Value) (s : Scalar) (position : Nat) (bytes : List UInt8) :
    Except Fault (List UInt8) :=
  if bytes.length < position then .error .outOfBytes
  else (v.write s (bytes.drop position)).map fun written => bytes.take position ++ written.2

def read (s : Scalar) (bytes : List UInt8) : Except Fault Value :=
  (s.read bytes).map fun b => ⟨s, b⟩

end Value

end GpuScript
