import DashTwrp.Newc.Encoding
import DashTwrp.Newc.Progress

namespace DashTwrp.Newc

open DashTwrp.Python

/-! The language `parse_newc` accepts.

An archive whose numeric fields are plain digits is accepted exactly when it is
an encoding, so nothing a reader of the format would refuse gets through. -/

variable {blob header : Bytes} {offset nextOffset final : Int} {entry : Entry} {entries : List Entry}

/-- The number in field `index` of a header whose fields are plain digits. -/
def fieldValue (header : Bytes) (index : Nat) : Nat :=
  hexValue (slice header (6 + index * 8 : Nat) (6 + index * 8 + 8 : Nat))

theorem HexHeader.field_at (hex : HexHeader header) {index : Nat} (bound : index < 13) :
    (slice header (6 + index * 8 : Nat) (6 + index * 8 + 8 : Nat)).length = 8 ∧
      (∀ byte ∈ slice header (6 + index * 8 : Nat) (6 + index * 8 + 8 : Nat), isHexDigit byte = true) ∧
      numericField header (6 + index * 8) = some (fieldValue header index : Int) := by
  have isField : 6 + index * 8 ∈ fieldOffsets := by
    rw [fieldOffsets, List.mem_range']
    exact ⟨index, bound, by omega⟩
  obtain ⟨width, digits⟩ := hex _ isField
  exact ⟨width, digits, hex.field isField⟩

theorem HexHeader.fieldValue_lt (hex : HexHeader header) {index : Nat} (bound : index < 13) :
    fieldValue header index < 2 ^ 32 := by
  obtain ⟨width, digits, -⟩ := hex.field_at bound
  have small := (hexField_hexValue _ digits).1
  rw [width] at small
  exact small

/-- A spelling of the fields of a header. -/
def Spells (header : Bytes) (upper : Nat → Nat → Bool) : Prop :=
  ∀ index < 13, hexField (upper index) (fieldValue header index) 8 =
    slice header (6 + index * 8 : Nat) (6 + index * 8 + 8 : Nat)

theorem HexHeader.spells (hex : HexHeader header) : ∃ upper, Spells header upper := by
  have each (index : Nat) : ∃ upper, index < 13 → hexField upper (fieldValue header index) 8 =
      slice header (6 + index * 8 : Nat) (6 + index * 8 + 8 : Nat) := by
    by_cases bound : index < 13
    · obtain ⟨width, digits, -⟩ := hex.field_at bound
      obtain ⟨-, upper, spelled⟩ := hexField_hexValue _ digits
      rw [width] at spelled
      exact ⟨upper, fun _ => spelled⟩
    · exact ⟨fun _ => true, fun below => absurd below bound⟩
  choose upper spelled using each
  exact ⟨upper, spelled⟩

/-- What `numericFields` reads from a header whose fields are plain digits. -/
def plainFields (header : Bytes) : Fields where
  inode := fieldValue header 0
  mode := fieldValue header 1
  uid := fieldValue header 2
  gid := fieldValue header 3
  nlink := fieldValue header 4
  mtime := fieldValue header 5
  size := fieldValue header 6
  deviceMajor := fieldValue header 7
  deviceMinor := fieldValue header 8
  rdeviceMajor := fieldValue header 9
  rdeviceMinor := fieldValue header 10
  nameSize := fieldValue header 11
  check := fieldValue header 12

theorem HexHeader.numericFields (hex : HexHeader header) :
    numericFields header = some (plainFields header) := by
  have read {index : Nat} (bound : index < 13) := (hex.field_at bound).2.2
  have inode := read (show 0 < 13 by decide)
  have mode := read (show 1 < 13 by decide)
  have uid := read (show 2 < 13 by decide)
  have gid := read (show 3 < 13 by decide)
  have nlink := read (show 4 < 13 by decide)
  have mtime := read (show 5 < 13 by decide)
  have size := read (show 6 < 13 by decide)
  have deviceMajor := read (show 7 < 13 by decide)
  have deviceMinor := read (show 8 < 13 by decide)
  have rdeviceMajor := read (show 9 < 13 by decide)
  have rdeviceMinor := read (show 10 < 13 by decide)
  have nameSize := read (show 11 < 13 by decide)
  have check := read (show 12 < 13 by decide)
  simp only [Nat.reduceMul, Nat.reduceAdd] at *
  simp only [Newc.numericFields, inode, mode, uid, gid, nlink, mtime, size, deviceMajor,
    deviceMinor, rdeviceMajor, rdeviceMinor, nameSize, check]
  rfl

theorem aligned_natCast (value : Nat) : aligned value = ((value + 3) / 4 * 4 : Nat) := by
  unfold aligned
  omega

/-- A header of plain digits with the parts of the record behind it. -/
structure Cut (header : Bytes) where
  hex : HexHeader header
  whole : header.length = 110
  magic : slice header 0 6 ∈ newcMagics
  upper : Nat → Nat → Bool
  spells : Spells header upper
  name : String
  data : Bytes
  nameGap : Bytes
  dataGap : Bytes
  name_size : (encodeUtf8 name).length + 1 = fieldValue header 11
  size : data.length = fieldValue header 6
  name_aligned : nameGap.length = (4 - (110 + (encodeUtf8 name).length + 1) % 4) % 4
  data_aligned : dataGap.length = (4 - data.length % 4) % 4

namespace Cut

def record (cut : Cut header) : Record where
  checksummed := slice header 0 6 = [0x30, 0x37, 0x30, 0x37, 0x30, 0x32]
  inode := .ofNat (fieldValue header 0)
  mode := .ofNat (fieldValue header 1)
  uid := .ofNat (fieldValue header 2)
  gid := .ofNat (fieldValue header 3)
  nlink := .ofNat (fieldValue header 4)
  mtime := .ofNat (fieldValue header 5)
  deviceMajor := .ofNat (fieldValue header 7)
  deviceMinor := .ofNat (fieldValue header 8)
  rdeviceMajor := .ofNat (fieldValue header 9)
  rdeviceMinor := .ofNat (fieldValue header 10)
  check := .ofNat (fieldValue header 12)
  upper := cut.upper
  name := cut.name
  data := cut.data
  nameGap := cut.nameGap
  dataGap := cut.dataGap
  name_short := cut.name_size ▸ cut.hex.fieldValue_lt (by decide)
  data_short := cut.size ▸ cut.hex.fieldValue_lt (by decide)
  name_aligned := cut.name_aligned
  data_aligned := cut.data_aligned

theorem magic_record (cut : Cut header) : cut.record.magic = slice header 0 6 := by
  have magic := cut.magic
  simp only [newcMagics, List.mem_cons, List.not_mem_nil, or_false] at magic
  unfold Record.magic record
  cases magic with
  | inl first => simp [first]
  | inr second => simp [second]

theorem fieldValues_record (cut : Cut header) :
    cut.record.fieldValues = (List.range 13).map (fieldValue header) := by
  have kept {index : Nat} (bound : index < 13) :
      (UInt32.ofNat (fieldValue header index)).toNat = fieldValue header index :=
    UInt32.toNat_ofNat_of_lt (cut.hex.fieldValue_lt bound)
  have listed : List.range 13 = [0, 1, 2, 3, 4, 5, 6, 7, 8, 9, 10, 11, 12] := rfl
  simp only [Record.fieldValues, Record.nameSize, record, listed, List.map_cons, List.map_nil,
    cut.name_size, cut.size]
  rw [kept (show 0 < 13 by decide), kept (show 1 < 13 by decide), kept (show 2 < 13 by decide),
    kept (show 3 < 13 by decide), kept (show 4 < 13 by decide), kept (show 5 < 13 by decide),
    kept (show 7 < 13 by decide), kept (show 8 < 13 by decide), kept (show 9 < 13 by decide),
    kept (show 10 < 13 by decide), kept (show 12 < 13 by decide)]

theorem spelledFields_record (cut : Cut header) :
    cut.record.spelledFields = (List.range 13).map fun index =>
      slice header (6 + index * 8 : Nat) (6 + index * 8 + 8 : Nat) := by
  rw [Record.spelledFields, cut.fieldValues_record]
  apply List.ext_getElem
  · simp
  · intro index inside _
    have bound : index < 13 := by simpa using inside
    simpa [record] using cut.spells index bound

theorem header_record (cut : Cut header) : cut.record.header = header := by
  have front : slice header 0 6 = slice header (0 : Nat) (6 : Nat) := rfl
  rw [Record.header, cut.magic_record, cut.spelledFields_record, flatten_cells, front,
    slice_append_slice header (by omega) (by omega), slice_natCast]
  exact List.take_of_length_le (Nat.le_of_eq cut.whole)

end Cut

/-- What the loop reads behind a header of plain digits is the encoding of a record. -/
theorem readRecord_encodes {position : Nat}
    (hex : HexHeader (slice blob position (position + 110 : Nat))) (onWord : position % 4 = 0)
    (read : readRecord blob position = .ok (entry, nextOffset)) (within : nextOffset ≤ blob.length) :
    ∃ record : Record, slice blob position (position + record.encode.length : Nat) = record.encode ∧
      nextOffset = (position + record.encode.length : Nat) ∧ entry = record.entryAt position := by
  obtain ⟨fields, name, type, wholeHeader, magic, numeric, named, nameFits, terminated, decoded,
    dataFits, typed, made, next⟩ := readRecord_eq_ok_iff.mp read
  have headerEnd : (position : Int) + 110 = (position + 110 : Nat) := by omega
  rw [headerEnd] at magic numeric decoded
  rw [hex.numericFields, Option.some.injEq] at numeric
  subst numeric
  obtain ⟨nameLength, nameSize⟩ : ∃ nameLength,
      fieldValue (slice blob position (position + 110 : Nat)) 11 = nameLength + 1 :=
    Nat.exists_eq_add_one.mpr (by simp only [plainFields] at named; omega)
  have nameEnd : ((position + 110 : Nat) : Int) +
      (plainFields (slice blob position (position + 110 : Nat))).nameSize =
        (position + 110 + nameLength + 1 : Nat) := by
    simp only [plainFields, nameSize]
    omega
  have nameLast : ((position + 110 + nameLength + 1 : Nat) : Int) - 1 =
      (position + 110 + nameLength : Nat) := by omega
  rw [headerEnd, nameEnd] at nameFits terminated dataFits made
  rw [nameEnd, nameLast] at decoded
  rw [nameLast, item_natCast] at terminated
  rw [decodeUtf8_eq_some_iff] at decoded
  rw [aligned_natCast] at dataFits made
  generalize dataStart : (position + 110 + nameLength + 1 + 3) / 4 * 4 = start at dataFits made
  have dataEnd : (start : Int) + (plainFields (slice blob position (position + 110 : Nat))).size =
      (start + fieldValue (slice blob position (position + 110 : Nat)) 6 : Nat) := by
    simp only [plainFields]
    omega
  rw [dataEnd] at dataFits made
  generalize size : fieldValue (slice blob position (position + 110 : Nat)) 6 = dataLength at *
  have nextEq : nextOffset = ((start + dataLength + 3) / 4 * 4 : Nat) := by
    rw [next, made, ← aligned_natCast]
    rfl
  rw [nextEq] at within
  have nameLengthEq : (encodeUtf8 name).length = nameLength := by
    rw [← decoded, length_slice]
    omega
  let cut : Cut (slice blob position (position + 110 : Nat)) :=
    { hex
      whole := by rw [length_slice]; omega
      magic
      upper := hex.spells.choose
      spells := hex.spells.choose_spec
      name
      data := slice blob start (start + dataLength : Nat)
      nameGap := slice blob (position + 110 + nameLength + 1 : Nat) start
      dataGap := slice blob (start + dataLength : Nat) ((start + dataLength + 3) / 4 * 4 : Nat)
      name_size := by rw [nameLengthEq, nameSize]
      size := by rw [length_slice]; omega
      name_aligned := by rw [length_slice]; omega
      data_aligned := by rw [length_slice, length_slice]; omega }
  have terminator : ([0] : Bytes) = slice blob (position + 110 + nameLength : Nat)
      (position + 110 + nameLength + 1 : Nat) := by
    apply List.ext_getElem?
    intro index
    rw [getElem?_slice]
    cases index with
    | zero => simpa using terminated.symm
    | succ index => simp
  have encoded : cut.record.encode =
      slice blob position ((start + dataLength + 3) / 4 * 4 : Nat) := by
    rw [Record.encode, cut.header_record, terminator]
    change slice blob position (position + 110 : Nat) ++ encodeUtf8 name ++ _ ++
      slice blob (position + 110 + nameLength + 1 : Nat) start ++
      slice blob start (start + dataLength : Nat) ++
      slice blob (start + dataLength : Nat) ((start + dataLength + 3) / 4 * 4 : Nat) = _
    rw [← decoded, slice_append_slice _ (by omega) (by omega),
      slice_append_slice _ (by omega) (by omega), slice_append_slice _ (by omega) (by omega),
      slice_append_slice _ (by omega) (by omega), slice_append_slice _ (by omega) (by omega)]
  have length : position + cut.record.encode.length = (start + dataLength + 3) / 4 * 4 := by
    rw [encoded, length_slice]
    omega
  have same : slice blob position (position + cut.record.encode.length : Nat) =
      cut.record.encode := by
    rw [length, encoded]
  refine ⟨cut.record, same, by rw [nextEq, length], ?_⟩
  have front : (blob.take position).length = position := by
    rw [List.length_take]
    omega
  have again := cut.record.readRecord_encode (blob.take position)
    (blob.drop (position + cut.record.encode.length)) (by rw [front]; exact onWord)
  have around := take_slice_drop blob (Nat.le_add_right position cut.record.encode.length)
  rw [same] at around
  rw [front, around, read, Except.ok.injEq, Prod.mk.injEq] at again
  exact again.1

theorem trailer_within (read : readRecord blob offset = .ok (entry, nextOffset))
    (empty : entry.size = 0) : nextOffset ≤ blob.length := by
  obtain ⟨fields, name, type, _, _, _, _, _, _, _, dataFits, _, rfl, rfl⟩ :=
    readRecord_eq_ok_iff.mp read
  have size : fields.size = 0 := empty
  simp only [makeEntry, size, Int.add_zero] at dataFits ⊢
  unfold aligned at *
  omega

theorem Records.inside (records : Records blob offset entries final) : offset < blob.length := by
  cases records with
  | trailer inside _ _ _ => exact inside
  | entry inside _ _ _ => exact inside

theorem HexHeaders.headerAt (hex : HexHeaders blob) {position : Nat} (visited : Visited blob position)
    (read : readRecord blob position = .ok (entry, nextOffset)) :
    HexHeader (slice blob position (position + 110 : Nat)) := by
  obtain ⟨_, _, _, whole, _⟩ := readRecord_eq_ok_iff.mp read
  exact hex position visited whole

/-- A run of the loop has read the encodings of records and of a trailer. -/
theorem Records.encodes (records : Records blob offset entries final) {position : Nat}
    (hex : HexHeaders blob) (visited : Visited blob offset) (start : offset = position) :
    ∃ (pending : List Record) (trailer : Record),
      slice blob position (position + (Archive.body pending ++ trailer.encode).length : Nat) =
        Archive.body pending ++ trailer.encode ∧
      final = (position + (Archive.body pending ++ trailer.encode).length : Nat) ∧
      entries = Archive.entriesFrom position pending ∧
      (∀ record ∈ pending, record.name ≠ trailerName) ∧
      trailer.name = trailerName ∧ trailer.data = [] := by
  induction records generalizing position with
  | @trailer offset nextOffset entry inside read isTrailer empty =>
      subst start
      have onWord := visited.multiple
      obtain ⟨trailer, same, rfl, rfl⟩ := readRecord_encodes (hex.headerAt visited read) (by omega)
        read (trailer_within read empty)
      refine ⟨[], trailer, ?_, rfl, rfl, by simp, isTrailer, ?_⟩
      · simpa [Archive.body] using same
      · have none : (trailer.data.length : Int) = 0 := empty
        exact List.eq_nil_of_length_eq_zero (by omega)
  | @entry offset nextOffset final entry rest inside read notTrailer records ih =>
      subst start
      have onWord := visited.multiple
      obtain ⟨record, same, rfl, rfl⟩ := readRecord_encodes (hex.headerAt visited read) (by omega)
        read (Int.le_of_lt records.inside)
      obtain ⟨pending, trailer, later, rfl, rfl, named, isTrailer, empty⟩ :=
        ih (.next visited inside read notTrailer) rfl
      have whole : Archive.body (record :: pending) ++ trailer.encode =
          record.encode ++ (Archive.body pending ++ trailer.encode) := by
        simp [Archive.body]
      refine ⟨record :: pending, trailer, ?_, ?_, rfl, ?_, isTrailer, empty⟩
      · rw [whole, List.length_append, ← Nat.add_assoc,
          ← slice_append_slice blob (Nat.le_add_right position record.encode.length)
            (Nat.le_add_right _ _), same, later]
      · simp only [whole, List.length_append, Nat.add_assoc]
      · intro other member
        cases member with
        | head => exact notTrailer
        | tail _ inPending => exact named other inPending

/-- `parse_newc` reads the encodings of archives, and nothing else whose numeric
fields are plain digits. -/
theorem parseNewc_language (budget : Nat) (blob : Bytes) (entries : List Entry) :
    (parseNewc budget blob = some (.ok entries) ∧ HexHeaders blob) ↔
      ∃ archive : Archive, archive.encode = blob ∧
        Archive.entriesFrom 0 archive.records = entries ∧ archive.records.length < budget := by
  constructor
  · intro accepted
    obtain ⟨parsed, hex⟩ := accepted
    obtain ⟨enough, final, records, zeros⟩ := parseNewc_eq_ok_iff.mp parsed
    obtain ⟨pending, trailer, same, rfl, rfl, named, trailerNamed, empty⟩ :=
      records.encodes hex .start Int.ofNat_zero.symm
    rw [Nat.zero_add] at same zeros
    rw [sliceFrom_natCast] at zeros
    let archive : Archive :=
      { records := pending
        trailer
        padding := (blob.drop (Archive.body pending ++ trailer.encode).length).length
        named
        trailer_named := trailerNamed
        trailer_empty := empty }
    refine ⟨archive, ?_, rfl, by simpa using enough⟩
    have around := take_slice_drop blob (Nat.zero_le (Archive.body pending ++ trailer.encode).length)
    rw [same, List.take_zero, List.nil_append] at around
    rw [Archive.encode, ← List.eq_replicate_of_mem zeros, around]
  · intro found
    obtain ⟨archive, rfl, rfl, enough⟩ := found
    refine ⟨parseNewc_eq_ok_iff.mpr ⟨?_, _, archive.records_from_start, archive.zero_tail⟩,
      archive.hexHeaders⟩
    rwa [Archive.length_entriesFrom]

end DashTwrp.Newc
