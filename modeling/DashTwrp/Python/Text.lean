import DashTwrp.Python.Slices
import Mathlib.Data.List.DropRight

namespace DashTwrp.Python

/-! Strict UTF-8 conversion between `bytes` and `str`, and the text streams over it. -/

/-- `text.decode("utf-8", errors="strict")`, where `none` is `UnicodeDecodeError`. -/
def decodeUtf8 (text : Bytes) : Option String := String.fromUTF8? ⟨text.toArray⟩

/-- `text.encode("utf-8")` -/
def encodeUtf8 (text : String) : Bytes := text.toByteArray.data.toList

@[simp] theorem decodeUtf8_encodeUtf8 (text : String) : decodeUtf8 (encodeUtf8 text) = some text := by
  simp only [decodeUtf8, encodeUtf8, String.fromUTF8?, Array.toArray_toList]
  exact dif_pos text.isValidUTF8

theorem decodeUtf8_eq_some_iff {bytes : Bytes} {text : String} :
    decodeUtf8 bytes = some text ↔ bytes = encodeUtf8 text := by
  constructor
  · intro decoded
    simp only [decodeUtf8, String.fromUTF8?] at decoded
    split at decoded
    · cases decoded
      rfl
    · contradiction
  · rintro rfl
    exact decodeUtf8_encodeUtf8 text

/-- `field.rstrip(b"\x00")` -/
def rstripNul (field : Bytes) : Bytes := field.rdropWhile (· == 0)

theorem encodeUtf8_ofList (characters : List Char) :
    encodeUtf8 (String.ofList characters) = characters.flatMap String.utf8EncodeChar := by
  simp [encodeUtf8, List.utf8Encode]

/-- Only the character NUL has an encoding that ends in a zero byte. -/
theorem getLast_utf8EncodeChar {character : Char} {byte : UInt8} (notNul : character ≠ '\x00')
    (last : (String.utf8EncodeChar character).getLast? = some byte) : byte ≠ 0 := by
  rintro rfl
  apply notNul
  have value : character.toNat = character.val.toNat := rfl
  unfold String.utf8EncodeChar at last
  simp only at last
  split at last
  · simp only [List.getLast?_singleton, Option.some.injEq] at last
    have zero := congrArg UInt8.toNat last
    simp only [UInt8.toNat_ofNat', UInt8.toNat_zero] at zero
    apply Char.ext
    apply UInt32.toNat_inj.mp
    change character.val.toNat = 0
    omega
  · -- A continuation byte has its top bit set.
    exfalso
    split at last
    all_goals try split at last
    all_goals
      simp only [List.getLast?_cons_cons, List.getLast?_singleton, Option.some.injEq] at last
      have zero := congrArg UInt8.toNat last
      simp only [UInt8.toNat_ofNat', UInt8.toNat_zero] at zero
      omega

/-- What is left of a text once the NUL characters at its end are stripped. -/
def strippedText (text : String) : String :=
  String.ofList (text.toList.rdropWhile (· == '\x00'))

/-- Text in a field that is padded with NUL bytes can be decoded once they are stripped. -/
theorem decodeUtf8_rstripNul (text : String) (padding : Nat) :
    decodeUtf8 (rstripNul (encodeUtf8 text ++ List.replicate padding 0)) =
      some (strippedText text) := by
  have unpadded : rstripNul (encodeUtf8 text ++ List.replicate padding 0) =
      rstripNul (encodeUtf8 text) := by
    induction padding with
    | zero => simp
    | succ padding ih =>
        rw [List.replicate_succ', ← List.append_assoc, rstripNul,
          List.rdropWhile_concat_pos _ _ _ (by simp)]
        exact ih
  rw [unpadded]
  nth_rewrite 1 [← String.ofList_toList (s := text)]
  unfold strippedText
  generalize text.toList = characters
  induction characters using List.reverseRecOn with
  | nil => decide
  | append_singleton front character ih =>
      rw [encodeUtf8_ofList, List.flatMap_append, List.flatMap_singleton, ← encodeUtf8_ofList]
      by_cases nul : character = '\x00'
      · subst nul
        rw [rstripNul, show String.utf8EncodeChar '\x00' = [0] from rfl,
          List.rdropWhile_concat_pos _ _ _ (by simp), List.rdropWhile_concat_pos _ _ _ (by simp)]
        exact ih
      · rw [List.rdropWhile_concat_neg _ _ _ (by simpa using nul), rstripNul,
          List.rdropWhile_eq_self_iff.mpr]
        · rw [decodeUtf8_eq_some_iff, encodeUtf8_ofList, encodeUtf8_ofList, List.flatMap_append,
            List.flatMap_singleton]
        · intro nonempty
          have lastByte := List.getLast?_eq_some_getLast nonempty
          have charBytes : String.utf8EncodeChar character ≠ [] := String.utf8EncodeChar_ne_nil
          rw [List.getLast?_append_of_ne_nil _ charBytes] at lastByte
          simpa using getLast_utf8EncodeChar nul lastByte

/-- What `open(path).read()` makes of the line ends of a text. -/
def universalNewlines : List Char → List Char
  | [] => []
  | '\r' :: '\n' :: rest => '\n' :: universalNewlines rest
  | '\r' :: rest => '\n' :: universalNewlines rest
  | character :: rest => character :: universalNewlines rest

theorem universalNewlines_plain {text : List Char} (plain : '\r' ∉ text) :
    universalNewlines text = text := by
  fun_induction universalNewlines text with
  | case1 => rfl
  | case2 rest ih => simp at plain
  | case3 rest _ ih => simp at plain
  | case4 character rest _ _ ih => rw [ih fun member => plain (List.mem_cons_of_mem _ member)]

theorem universalNewlines_noReturn (text : List Char) : '\r' ∉ universalNewlines text := by
  fun_induction universalNewlines text with
  | case1 => simp
  | case2 rest ih => simpa using ih
  | case3 rest _ ih => simpa using ih
  | case4 character rest notCrlf notReturn ih =>
      rw [List.mem_cons, not_or]
      exact ⟨fun same => notReturn same.symm, ih⟩

/-- `character.isspace()` -/
def isTextSpace (character : Char) : Bool :=
  let code := character.toNat
  9 ≤ code && code ≤ 13 || 28 ≤ code && code ≤ 32 || 0x2000 ≤ code && code ≤ 0x200a ||
    [0x85, 0xa0, 0x1680, 0x2028, 0x2029, 0x202f, 0x205f, 0x3000].contains code

/-- `text.strip()` -/
def strip (text : List Char) : List Char :=
  (text.dropWhile isTextSpace).rdropWhile isTextSpace

/-- How a byte stands in `repr` of a `bytes` value between the given quotes. -/
def reprByte (quote byte : UInt8) : List Char :=
  let hexDigit (value : Nat) : Char := Nat.digitChar value
  if byte = quote ∨ byte = 0x5c then ['\\', Char.ofNat byte.toNat]
  else if byte = 0x09 then ['\\', 't']
  else if byte = 0x0a then ['\\', 'n']
  else if byte = 0x0d then ['\\', 'r']
  else if 0x20 ≤ byte ∧ byte < 0x7f then [Char.ofNat byte.toNat]
  else ['\\', 'x', hexDigit (byte.toNat / 16), hexDigit (byte.toNat % 16)]

/-- `repr(data)` -/
def bytesRepr (data : Bytes) : String :=
  let quote : UInt8 := if 0x27 ∈ data ∧ 0x22 ∉ data then 0x22 else 0x27
  let quoteChar := Char.ofNat quote.toNat
  String.ofList ('b' :: quoteChar :: data.flatMap (reprByte quote) ++ [quoteChar])

/-- The text of a stream that is read with `text=True`. -/
def decodeText (raw : Bytes) : Option (List Char) :=
  (decodeUtf8 raw).map fun text => universalNewlines text.toList

end DashTwrp.Python
