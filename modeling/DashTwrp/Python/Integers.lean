import DashTwrp.Python.Slices
import Mathlib.Data.List.Induction

namespace DashTwrp.Python

/-! `int(digits, 16)` on a byte string.

Besides plain digits Python accepts surrounding blanks, a sign, an `0x` prefix
and single underscores between digits, so a field of eight bytes need not hold
eight digits and its value need not be a natural number.
-/

def isSpace (byte : UInt8) : Bool :=
  byte == 0x20 || (0x09 ≤ byte && byte ≤ 0x0d)

/-- The value of one hexadecimal digit of either case. -/
def hexDigit? (byte : UInt8) : Option Nat :=
  if 0x30 ≤ byte ∧ byte ≤ 0x39 then some (byte.toNat - 0x30)
  else if 0x41 ≤ byte ∧ byte ≤ 0x46 then some (byte.toNat - 0x41 + 10)
  else if 0x61 ≤ byte ∧ byte ≤ 0x66 then some (byte.toNat - 0x61 + 10)
  else none

def isHexDigit (byte : UInt8) : Bool := (hexDigit? byte).isSome

/-- The digits in front of the first byte that is neither a digit nor an
underscore, with the rest of the string.  Two underscores in a row and a last
underscore are errors. -/
def scanDigits (value : Nat) (afterUnderscore : Bool) : Bytes → Option (Nat × Bytes)
  | [] => if afterUnderscore then none else some (value, [])
  | byte :: rest =>
      match hexDigit? byte with
      | some digit => scanDigits (16 * value + digit) false rest
      | none =>
          if byte == 0x5f then
            if afterUnderscore then none else scanDigits value true rest
          else if afterUnderscore then none else some (value, byte :: rest)

def splitSign : Bytes → Bool × Bytes
  | 0x2b :: rest => (false, rest)
  | 0x2d :: rest => (true, rest)
  | digits => (false, digits)

/-- Drops `0x` or `0X` and the one underscore that may follow it. -/
def dropHexPrefix : Bytes → Bytes
  | 0x30 :: 0x78 :: 0x5f :: rest => rest
  | 0x30 :: 0x58 :: 0x5f :: rest => rest
  | 0x30 :: 0x78 :: rest => rest
  | 0x30 :: 0x58 :: rest => rest
  | digits => digits

/-- `int(text, 16)`, where `none` is `ValueError`. -/
def intBase16 (text : Bytes) : Option Int :=
  let (negative, unsigned) := splitSign (text.dropWhile isSpace)
  let digits := dropHexPrefix unsigned
  match digits with
  | [] => none
  | first :: _ =>
      if isHexDigit first then
        match scanDigits 0 false digits with
        | none => none
        | some (value, rest) =>
            if (rest.dropWhile isSpace).isEmpty then
              some (if negative then -(value : Int) else value)
            else none
      else none

example : intBase16 " -0x_1f ".toUTF8.data.toList = some (-31) := by decide
example : intBase16 "00_0000A".toUTF8.data.toList = some 10 := by decide
example : intBase16 "0000001_".toUTF8.data.toList = none := by decide

/-- The number a string of hexadecimal digits spells. -/
def hexValue (digits : Bytes) : Nat :=
  digits.foldl (fun value byte => 16 * value + (hexDigit? byte).getD 0) 0

theorem scanDigits_of_digits (digits : Bytes) (value : Nat)
    (hex : ∀ byte ∈ digits, isHexDigit byte = true) :
    scanDigits value false digits =
      some (digits.foldl (fun value byte => 16 * value + (hexDigit? byte).getD 0) value, []) := by
  induction digits generalizing value with
  | nil => rfl
  | cons byte rest ih =>
      obtain ⟨digit, read⟩ := Option.isSome_iff_exists.mp (hex byte (by simp))
      simp only [scanDigits, read, List.foldl_cons, Option.getD_some]
      exact ih _ (fun other member => hex other (by simp [member]))

private theorem hexDigit_range (byte : UInt8) (hex : isHexDigit byte = true) : 0x30 ≤ byte := by
  unfold isHexDigit hexDigit? at hex
  split at hex
  · grind
  · split at hex
    · grind
    · split at hex
      · grind
      · contradiction

private theorem digit_is_plain (byte : UInt8) (hex : isHexDigit byte = true) :
    isSpace byte = false ∧ byte ≠ 0x2b ∧ byte ≠ 0x2d ∧ byte ≠ 0x78 ∧ byte ≠ 0x58 := by
  refine ⟨?_, ?_, ?_, ?_, ?_⟩
  · have range := hexDigit_range byte hex
    simp only [isSpace, Bool.or_eq_false_iff, beq_eq_false_iff_ne, Bool.and_eq_false_iff,
      decide_eq_false_iff_not]
    exact ⟨by grind, by grind⟩
  all_goals
    rintro rfl
    exact absurd hex (by decide)

private theorem splitSign_digit (first : UInt8) (rest : Bytes)
    (plus : first ≠ 0x2b) (minus : first ≠ 0x2d) :
    splitSign (first :: rest) = (false, first :: rest) := by
  unfold splitSign
  split <;> simp_all

private theorem dropHexPrefix_digits (digits : Bytes)
    (plain : ∀ byte ∈ digits, byte ≠ 0x78 ∧ byte ≠ 0x58) : dropHexPrefix digits = digits := by
  unfold dropHexPrefix
  split <;> simp_all

/-- On a plain string of digits, as every writer of the format emits, `int`
reads their value. -/
theorem intBase16_of_digits (digits : Bytes) (nonempty : digits ≠ [])
    (hex : ∀ byte ∈ digits, isHexDigit byte = true) :
    intBase16 digits = some (hexValue digits : Int) := by
  cases digits with
  | nil => contradiction
  | cons first rest =>
      obtain ⟨notSpace, notPlus, notMinus, _, _⟩ := digit_is_plain first (hex first (by simp))
      have unprefixed : dropHexPrefix (first :: rest) = first :: rest :=
        dropHexPrefix_digits _ fun byte member =>
          (digit_is_plain byte (hex byte member)).2.2.2
      have kept : (first :: rest).dropWhile isSpace = first :: rest := by
        simp [notSpace]
      simp only [intBase16, kept, splitSign_digit first rest notPlus notMinus, unprefixed,
        hex first (by simp), scanDigits_of_digits (first :: rest) 0 hex, if_true]
      rfl

/-- The digit that spells a value below sixteen in the chosen case. -/
def hexDigit (upper : Bool) (value : Nat) : UInt8 :=
  if value < 10 then UInt8.ofNat (0x30 + value)
  else if upper then UInt8.ofNat (0x41 + (value - 10))
  else UInt8.ofNat (0x61 + (value - 10))

/-- A value spelled with `width` digits, the case of each digit chosen freely. -/
def hexField (upper : Nat → Bool) (value : Nat) : Nat → Bytes
  | 0 => []
  | width + 1 => hexField upper (value / 16) width ++ [hexDigit (upper width) (value % 16)]

@[simp] theorem length_hexField (upper : Nat → Bool) (value width : Nat) :
    (hexField upper value width).length = width := by
  induction width generalizing value with
  | zero => rfl
  | succ width ih => simp [hexField, ih]

theorem hexDigit?_hexDigit (upper : Bool) (value : Nat) (small : value < 16) :
    hexDigit? (hexDigit upper value) = some value := by
  have every : ∀ upper, ∀ value : Fin 16, hexDigit? (hexDigit upper value.val) = some value.val := by
    decide
  exact every upper ⟨value, small⟩

theorem hexField_digits (upper : Nat → Bool) (value width : Nat) :
    ∀ byte ∈ hexField upper value width, isHexDigit byte = true := by
  induction width generalizing value with
  | zero => simp [hexField]
  | succ width ih =>
      intro byte member
      rcases List.mem_append.mp member with front | last
      · exact ih _ byte front
      · rw [List.mem_singleton.mp last, isHexDigit,
          hexDigit?_hexDigit _ _ (Nat.mod_lt _ (by decide))]
        rfl

theorem hexValue_hexField (upper : Nat → Bool) (value width : Nat)
    (bound : value < 16 ^ width) : hexValue (hexField upper value width) = value := by
  induction width generalizing value with
  | zero => simp only [Nat.pow_zero, Nat.lt_one_iff] at bound; subst value; rfl
  | succ width ih =>
      have front : hexValue (hexField upper (value / 16) width) = value / 16 :=
        ih _ (by rw [Nat.pow_succ] at bound; omega)
      unfold hexValue at front ⊢
      rw [hexField, List.foldl_append, front]
      simp only [List.foldl_cons, List.foldl_nil,
        hexDigit?_hexDigit _ _ (Nat.mod_lt value (by decide : 16 > 0)), Option.getD_some]
      omega

/-- The numeric parser inverts the spelling, whatever the case of the digits. -/
theorem intBase16_hexField (upper : Nat → Bool) (value width : Nat)
    (nonempty : 0 < width) (bound : value < 16 ^ width) :
    intBase16 (hexField upper value width) = some (value : Int) := by
  rw [intBase16_of_digits _ _ (hexField_digits upper value width),
    hexValue_hexField upper value width bound]
  intro empty
  have length := length_hexField upper value width
  rw [empty, List.length_nil] at length
  omega

theorem hexDigit_hexDigit? {byte : UInt8} {digit : Nat} (read : hexDigit? byte = some digit) :
    digit < 16 ∧ hexDigit (decide (byte < 0x61)) digit = byte := by
  have every : ∀ code : Fin 256, ∀ digit ∈ hexDigit? (UInt8.ofNat code),
      digit < 16 ∧ hexDigit (decide (UInt8.ofNat code < 0x61)) digit = UInt8.ofNat code := by
    decide +kernel
  have found := every ⟨byte.toNat, byte.toNat_lt⟩ digit
  rw [UInt8.ofNat_toNat] at found
  exact found read

theorem hexField_congr {upper other : Nat → Bool} {width : Nat} (value : Nat)
    (same : ∀ place < width, upper place = other place) :
    hexField upper value width = hexField other value width := by
  induction width generalizing value with
  | zero => rfl
  | succ width ih =>
      rw [hexField, hexField, same width (Nat.lt_succ_self width),
        ih _ fun place below => same place (Nat.lt_succ_of_lt below)]

/-- Every string of hexadecimal digits is a spelling of its value. -/
theorem hexField_hexValue (digits : Bytes) (hex : ∀ byte ∈ digits, isHexDigit byte = true) :
    hexValue digits < 16 ^ digits.length ∧
      ∃ upper, hexField upper (hexValue digits) digits.length = digits := by
  induction digits using List.reverseRecOn with
  | nil => exact ⟨Nat.one_pos, fun _ => true, rfl⟩
  | append_singleton front byte ih =>
      obtain ⟨bound, upper, spelled⟩ := ih fun other member => hex other (by simp [member])
      obtain ⟨digit, read⟩ := Option.isSome_iff_exists.mp (hex byte (by simp))
      obtain ⟨small, same⟩ := hexDigit_hexDigit? read
      have value : hexValue (front ++ [byte]) = 16 * hexValue front + digit := by
        simp [hexValue, read]
      have high : (16 * hexValue front + digit) / 16 = hexValue front := by omega
      have low : (16 * hexValue front + digit) % 16 = digit := by omega
      rw [value, List.length_append, List.length_singleton]
      refine ⟨by rw [Nat.pow_succ]; omega,
        fun place => if place = front.length then decide (byte < 0x61) else upper place, ?_⟩
      have unchanged := hexField_congr (hexValue front) fun place (below : place < front.length) =>
        (if_neg (Nat.ne_of_lt below) :
          (if place = front.length then decide (byte < 0x61) else upper place) = upper place)
      rw [hexField, high, low, if_pos rfl, same, unchanged, spelled]

end DashTwrp.Python
