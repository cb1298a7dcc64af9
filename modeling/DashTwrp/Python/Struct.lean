import DashTwrp.Python.Slices

namespace DashTwrp.Python

/-! Little-endian 32-bit fields: `struct.unpack_from("<I", ..)` and `struct.pack_into("<I", ..)`. -/

/-- The four bytes of a field. -/
def le32 (value : Nat) : Bytes :=
  [UInt8.ofNat (value % 256), UInt8.ofNat (value / 256 % 256),
    UInt8.ofNat (value / 65536 % 256), UInt8.ofNat (value / 16777216 % 256)]

def le32Value : Bytes → Option Nat
  | [a, b, c, d] => some (a.toNat + 256 * b.toNat + 65536 * c.toNat + 16777216 * d.toNat)
  | _ => none

/-- `struct.unpack_from("<I", data, offset)[0]`, where `none` is `struct.error`. -/
def unpackU32 (data : Bytes) (offset : Nat) : Option Nat :=
  le32Value (slice data offset (offset + 4 : Nat))

/-- `struct.pack_into("<I", data, offset, value)`, where `none` is `struct.error`. -/
def packU32 (data : Bytes) (offset value : Nat) : Option Bytes :=
  if value < 2 ^ 32 ∧ offset + 4 ≤ data.length then
    some (assign data offset (offset + 4 : Nat) (le32 value))
  else none

@[simp] theorem length_le32 (value : Nat) : (le32 value).length = 4 := rfl

theorem le32Value_le32 (value : Nat) (bound : value < 2 ^ 32) :
    le32Value (le32 value) = some value := by
  simp only [le32, le32Value, UInt8.toNat_ofNat', Option.some.injEq]
  omega

theorem le32Value_lt {field : Bytes} {value : Nat} (read : le32Value field = some value) :
    value < 2 ^ 32 := by
  unfold le32Value at read
  split at read
  · rename_i a b c d
    cases read
    have := a.toNat_lt
    have := b.toNat_lt
    have := c.toNat_lt
    have := d.toNat_lt
    omega
  · contradiction

theorem length_of_le32Value {field : Bytes} {value : Nat} (read : le32Value field = some value) :
    field.length = 4 := by
  unfold le32Value at read
  split at read
  · rfl
  · contradiction

theorem unpackU32_lt {data : Bytes} {offset value : Nat}
    (read : unpackU32 data offset = some value) : value < 2 ^ 32 :=
  le32Value_lt read

theorem unpackU32_bound {data : Bytes} {offset value : Nat}
    (read : unpackU32 data offset = some value) : offset + 4 ≤ data.length := by
  have length := length_of_le32Value read
  rw [length_slice] at length
  omega

theorem unpackU32_isSome {data : Bytes} {offset : Nat} (bound : offset + 4 ≤ data.length) :
    ∃ value, unpackU32 data offset = some value := by
  have length : (slice data offset (offset + 4 : Nat)).length = 4 := by
    rw [length_slice]
    omega
  unfold unpackU32
  match field : slice data offset (offset + 4 : Nat) with
  | [a, b, c, d] => exact ⟨_, rfl⟩
  | [] | [_] | [_, _] | [_, _, _] | _ :: _ :: _ :: _ :: _ :: _ =>
      rw [field] at length
      simp at length

/-- A field is read from the section that contains it. -/
theorem unpackU32_of_slice {data field : Bytes} (start stop : Nat)
    (read : slice data start stop = field) (offset : Nat) (within : start + offset + 4 ≤ stop) :
    unpackU32 data (start + offset) = unpackU32 field offset := by
  unfold unpackU32
  rw [← read, slice_slice _ _ _ _ _ (by omega), ← Nat.add_assoc]

theorem unpackU32_middle (front back : Bytes) (value : Nat) (bound : value < 2 ^ 32) :
    unpackU32 (front ++ le32 value ++ back) front.length = some value := by
  unfold unpackU32
  rw [slice_middle front (le32 value) back front.length (front.length + 4) rfl rfl,
    le32Value_le32 value bound]

theorem unpackU32_congr {left right : Bytes} {start stop : Nat}
    (same : SameOutside start stop left right) (offset : Nat)
    (apart : offset + 4 ≤ start ∨ stop ≤ offset) :
    unpackU32 left offset = unpackU32 right offset := by
  unfold unpackU32
  rw [same.slice_eq _ _ apart]

/-- The field at a position of an entry that the data holds at `start`. -/
theorem unpackU32_within {data : Bytes} (start stop offset : Nat) (front back : Bytes) (value : Nat)
    (read : slice data start stop = front ++ le32 value ++ back) (position : front.length = offset)
    (within : start + offset + 4 ≤ stop) (bound : value < 2 ^ 32) :
    unpackU32 data (start + offset) = some value := by
  rw [unpackU32_of_slice start stop read offset within, ← position, unpackU32_middle front back value bound]

end DashTwrp.Python
