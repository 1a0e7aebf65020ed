/-!
# Big-endian numbers

A number as a fixed count of bytes, most significant first. The two directions are inverse to each
other up to the width: `decode_encode` and `encode_decode`.
-/

namespace JavaClass.BigEndian

/-- How many numbers `width` bytes can hold. -/
def bound : (width : Nat) → Nat
  | 0 => 1
  | width + 1 => 256 * bound width

theorem bound_pos (width : Nat) : 0 < bound width := by
  induction width with
  | zero => decide
  | succ width ih => rw [bound]; omega

/-- The last `width` base-256 digits of `n`. -/
def encode : (width n : Nat) → List UInt8
  | 0, _ => []
  | width + 1, n => UInt8.ofNat (n / bound width) :: encode width n

/-- The number that a string of base-256 digits stands for. -/
def decode (bytes : List UInt8) : Nat :=
  bytes.foldl (fun n b => n * 256 + b.toNat) 0

@[simp] theorem length_encode (width n : Nat) : (encode width n).length = width := by
  induction width with
  | zero => rfl
  | succ width ih => simp [encode, ih]

theorem foldl_eq (bytes : List UInt8) (n : Nat) :
    bytes.foldl (fun n b => n * 256 + b.toNat) n = n * bound bytes.length + decode bytes := by
  induction bytes generalizing n with
  | nil => simp [decode, bound]
  | cons b bytes ih =>
    simp only [decode, List.foldl_cons, List.length_cons]
    rw [ih, ih (0 * 256 + b.toNat), bound, Nat.add_mul, Nat.zero_mul, Nat.zero_add, Nat.mul_assoc,
      Nat.add_assoc]

theorem decode_cons (b : UInt8) (bytes : List UInt8) :
    decode (b :: bytes) = b.toNat * bound bytes.length + decode bytes := by
  rw [decode, List.foldl_cons, foldl_eq, Nat.zero_mul, Nat.zero_add]

theorem decode_lt (bytes : List UInt8) : decode bytes < bound bytes.length := by
  induction bytes with
  | nil => simp [decode, bound]
  | cons b bytes ih =>
    rw [decode_cons, List.length_cons, bound]
    have hb : b.toNat < 256 := b.toNat_lt
    have : (b.toNat + 1) * bound bytes.length ≤ 256 * bound bytes.length :=
      Nat.mul_le_mul_right _ hb
    rw [Nat.add_mul, Nat.one_mul] at this
    omega

theorem decode_encode (width n : Nat) : decode (encode width n) = n % bound width := by
  induction width with
  | zero => simp [encode, decode, bound, Nat.mod_one]
  | succ width ih =>
    have h : bound (width + 1) = bound width * 256 := Nat.mul_comm ..
    rw [encode, decode_cons, length_encode, ih, UInt8.toNat_ofNat', h, Nat.mod_mul, Nat.mul_comm,
      Nat.add_comm]

theorem encode_add_mul (width n k : Nat) : encode width (k * bound width + n) = encode width n := by
  induction width generalizing k with
  | zero => rfl
  | succ width ih =>
    have htail : k * bound (width + 1) + n = (k * 256) * bound width + n := by
      rw [bound, Nat.mul_assoc]
    rw [encode, encode, htail, ih]
    congr 1
    rw [Nat.add_comm, Nat.add_mul_div_right _ _ (bound_pos width), Nat.add_comm]
    apply UInt8.toNat_inj.mp
    simp [UInt8.toNat_ofNat']

theorem encode_decode (bytes : List UInt8) : encode bytes.length (decode bytes) = bytes := by
  induction bytes with
  | nil => rfl
  | cons b bytes ih =>
    rw [List.length_cons, encode, decode_cons, encode_add_mul, ih]
    congr 1
    rw [Nat.add_comm, Nat.add_mul_div_right _ _ (bound_pos _), Nat.div_eq_of_lt (decode_lt bytes),
      Nat.zero_add]
    exact UInt8.ofNat_toNat

end JavaClass.BigEndian
