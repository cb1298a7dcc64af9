import DashTwrp.Newc.Extents

namespace DashTwrp.Newc

open DashTwrp.Python

/-! The newc format as writers emit it, and that `parse_newc` undoes it. -/

/-- One record of an archive: the thirteen header fields (the two sizes are
those of the name and of the data), the letter case of their digits, and the
bytes in the two alignment gaps. -/
structure Record where
  checksummed : Bool
  inode : UInt32
  mode : UInt32
  uid : UInt32
  gid : UInt32
  nlink : UInt32
  mtime : UInt32
  deviceMajor : UInt32
  deviceMinor : UInt32
  rdeviceMajor : UInt32
  rdeviceMinor : UInt32
  check : UInt32
  upper : Nat → Nat → Bool
  name : String
  data : Bytes
  nameGap : Bytes
  dataGap : Bytes
  name_short : (encodeUtf8 name).length + 1 < 2 ^ 32
  data_short : data.length < 2 ^ 32
  name_aligned : nameGap.length = (4 - (110 + (encodeUtf8 name).length + 1) % 4) % 4
  data_aligned : dataGap.length = (4 - data.length % 4) % 4

namespace Record

def magic (record : Record) : Bytes :=
  if record.checksummed then [0x30, 0x37, 0x30, 0x37, 0x30, 0x32]
  else [0x30, 0x37, 0x30, 0x37, 0x30, 0x31]

def nameSize (record : Record) : Nat := (encodeUtf8 record.name).length + 1

def fieldValues (record : Record) : List Nat :=
  [record.inode.toNat, record.mode.toNat, record.uid.toNat, record.gid.toNat,
    record.nlink.toNat, record.mtime.toNat, record.data.length, record.deviceMajor.toNat,
    record.deviceMinor.toNat, record.rdeviceMajor.toNat, record.rdeviceMinor.toNat,
    record.nameSize, record.check.toNat]

def spelledFields (record : Record) : List Bytes :=
  record.fieldValues.mapIdx fun index value => hexField (record.upper index) value 8

def header (record : Record) : Bytes := record.magic ++ record.spelledFields.flatten

def encode (record : Record) : Bytes :=
  record.header ++ encodeUtf8 record.name ++ [0] ++ record.nameGap ++ record.data ++ record.dataGap

def fields (record : Record) : Fields where
  inode := record.inode.toNat
  mode := record.mode.toNat
  uid := record.uid.toNat
  gid := record.gid.toNat
  nlink := record.nlink.toNat
  mtime := record.mtime.toNat
  size := record.data.length
  deviceMajor := record.deviceMajor.toNat
  deviceMinor := record.deviceMinor.toNat
  rdeviceMajor := record.rdeviceMajor.toNat
  rdeviceMinor := record.rdeviceMinor.toNat
  nameSize := record.nameSize
  check := record.check.toNat

/-- The entry a reader should report for a record laid out at `position`. -/
def entryAt (record : Record) (position : Nat) : Entry :=
  let dataStart := position + 110 + record.nameSize + record.nameGap.length
  makeEntry record.fields record.name (record.mode.toNat &&& 0o170000)
    position dataStart (dataStart + record.data.length : Nat)

theorem length_magic (record : Record) : record.magic.length = 6 := by
  unfold magic
  split <;> rfl

theorem magic_mem (record : Record) : record.magic ∈ newcMagics := by
  unfold magic
  split <;> decide

@[simp] theorem length_spelledFields (record : Record) : record.spelledFields.length = 13 := by
  simp [spelledFields, fieldValues]

theorem spelledFields_uniform (record : Record) :
    ∀ spelled ∈ record.spelledFields, spelled.length = 8 := by
  intro spelled member
  obtain ⟨index, bound, rfl⟩ := List.mem_iff_getElem.mp member
  simp [spelledFields]

theorem length_header (record : Record) : record.header.length = 110 := by
  have widths : record.spelledFields.map List.length = List.replicate 13 8 := by
    rw [← record.length_spelledFields]
    exact List.map_eq_replicate_iff.mpr record.spelledFields_uniform
  rw [header, List.length_append, length_magic, List.length_flatten, widths]
  rfl

/-- Field `index` of the header, as it is spelled. -/
theorem slice_header (record : Record) (index : Nat) (bound : index < 13) :
    slice record.header (6 + index * 8 : Nat) (6 + index * 8 + 8 : Nat) =
      hexField (record.upper index)
        (record.fieldValues.get ⟨index, by simpa [fieldValues] using bound⟩) 8 := by
  have read := slice_append_left record.magic record.spelledFields.flatten (index * 8) (index * 8 + 8)
  rw [length_magic, ← Nat.add_assoc] at read
  rw [header, read, slice_flatten _ 8 index record.spelledFields_uniform (by simpa using bound)]
  simp [spelledFields]

theorem numericField_header (record : Record) (index : Nat) (bound : index < 13)
    (small : record.fieldValues.get ⟨index, by simpa [fieldValues] using bound⟩ < 2 ^ 32) :
    numericField record.header (6 + index * 8) =
      some (record.fieldValues.get ⟨index, by simpa [fieldValues] using bound⟩ : Int) := by
  rw [numericField, slice_header record index bound]
  exact intBase16_hexField _ _ 8 (by decide) small

theorem numericFields_header (record : Record) :
    numericFields record.header = some record.fields := by
  have small := fun value : UInt32 => value.toNat_lt
  have inode := record.numericField_header 0 (by decide) (small _)
  have mode := record.numericField_header 1 (by decide) (small _)
  have uid := record.numericField_header 2 (by decide) (small _)
  have gid := record.numericField_header 3 (by decide) (small _)
  have nlink := record.numericField_header 4 (by decide) (small _)
  have mtime := record.numericField_header 5 (by decide) (small _)
  have size := record.numericField_header 6 (by decide) record.data_short
  have deviceMajor := record.numericField_header 7 (by decide) (small _)
  have deviceMinor := record.numericField_header 8 (by decide) (small _)
  have rdeviceMajor := record.numericField_header 9 (by decide) (small _)
  have rdeviceMinor := record.numericField_header 10 (by decide) (small _)
  have nameSize := record.numericField_header 11 (by decide) record.name_short
  have check := record.numericField_header 12 (by decide) (small _)
  simp only [Nat.reduceMul, Nat.reduceAdd] at *
  simp only [numericFields, inode, mode, uid, gid, nlink, mtime, size, deviceMajor, deviceMinor,
    rdeviceMajor, rdeviceMinor, nameSize, check]
  rfl

theorem header_hex (record : Record) : HexHeader record.header := by
  intro index isField
  simp only [fieldOffsets, List.mem_range'] at isField
  obtain ⟨number, bound, rfl⟩ := isField
  rw [Nat.mul_comm 8 number, record.slice_header number bound]
  exact ⟨length_hexField _ _ _, hexField_digits _ _ _⟩

theorem length_encode (record : Record) :
    record.encode.length = 110 + record.nameSize + record.nameGap.length + record.data.length +
      record.dataGap.length := by
  simp only [encode, List.length_append, length_header, nameSize, List.length_singleton]
  omega

/-- Records keep the archive position a multiple of four. -/
theorem length_encode_mod (record : Record) : record.encode.length % 4 = 0 := by
  have nameAligned := record.name_aligned
  have dataAligned := record.data_aligned
  rw [length_encode, nameSize]
  omega

/-- The loop body reads a record back wherever an aligned archive puts it. -/
theorem readRecord_encode (record : Record) (front back : Bytes) (aligned4 : front.length % 4 = 0) :
    readRecord (front ++ record.encode ++ back) front.length =
      .ok (record.entryAt front.length, (front.length + record.encode.length : Nat)) := by
  have nameAligned := record.name_aligned
  have dataAligned := record.data_aligned
  have whole := record.length_encode
  have headerLength := record.length_header
  have sized : record.nameSize = (encodeUtf8 record.name).length + 1 := rfl
  have length : (front ++ record.encode ++ back).length =
      front.length + record.encode.length + back.length := by simp [Nat.add_assoc]
  have headerRead : slice (front ++ record.encode ++ back) front.length (front.length + 110 : Nat) =
      record.header := by
    have split : front ++ record.encode ++ back = front ++ record.header ++
        (encodeUtf8 record.name ++ [0] ++ record.nameGap ++ record.data ++ record.dataGap ++ back) := by
      simp [encode]
    rw [split]
    exact slice_middle _ _ _ _ _ rfl (by omega)
  have nameRead : slice (front ++ record.encode ++ back) (front.length + 110 : Nat)
      (front.length + 110 + (encodeUtf8 record.name).length : Nat) = encodeUtf8 record.name := by
    have split : front ++ record.encode ++ back = front ++ record.header ++ encodeUtf8 record.name ++
        ([0] ++ record.nameGap ++ record.data ++ record.dataGap ++ back) := by
      simp [encode]
    rw [split]
    exact slice_middle _ _ _ _ _ (by simp [headerLength]) (by simp [headerLength])
  have terminator : (front ++ record.encode ++ back)[front.length + 110 +
      (encodeUtf8 record.name).length]? = some 0 := by
    have split : front ++ record.encode ++ back = front ++ record.header ++ encodeUtf8 record.name ++
        (0 :: (record.nameGap ++ record.data ++ record.dataGap ++ back)) := by
      simp [encode]
    have position : front.length + 110 + (encodeUtf8 record.name).length =
        (front ++ record.header ++ encodeUtf8 record.name).length := by
      simp [headerLength, Nat.add_assoc]
    rw [split, position, List.getElem?_append_right (Nat.le_refl _), Nat.sub_self,
      List.getElem?_cons_zero]
  have magicRead : slice record.header 0 6 = record.magic := by
    have read := slice_middle [] record.magic record.spelledFields.flatten 0 6 rfl
      (by simp [length_magic])
    simpa [header] using read
  have nameEnd : (front.length : Int) + 110 + record.fields.nameSize - 1 =
      (front.length + 110 + (encodeUtf8 record.name).length : Nat) := by
    simp only [fields]
    omega
  have dataStart : aligned (front.length + 110 + record.fields.nameSize) =
      (front.length + 110 + record.nameSize + record.nameGap.length : Nat) := by
    simp only [fields, aligned]
    omega
  have headerEnd : (front.length : Int) + 110 = (front.length + 110 : Nat) := by omega
  refine readRecord_eq_ok_iff.mpr ⟨record.fields, record.name, record.mode.toNat &&& 0o170000,
    ?_, ?_, ?_, ?_, ?_, ?_, ?_, ?_, ?_, ?_, ?_⟩
  · omega
  · rw [headerEnd, headerRead, magicRead]
    exact record.magic_mem
  · rw [headerEnd, headerRead]
    exact record.numericFields_header
  · simp only [fields]
    omega
  · simp only [fields]
    omega
  · rw [nameEnd, item_natCast, terminator]
  · rw [nameEnd, headerEnd, nameRead, decodeUtf8_encodeUtf8]
  · rw [dataStart]
    simp only [fields]
    omega
  · have modeBound := record.mode.toNat_lt
    simp only [fileType, fields, Int.toNat_natCast]
    exact if_pos ⟨by omega, by omega⟩
  · rw [dataStart, entryAt]
    rfl
  · simp only [entryAt, makeEntry, aligned]
    omega

/-- An entry carries the metadata its record encodes. -/
structure Describes (record : Record) (entry : Entry) : Prop where
  path : entry.path = record.name
  type : entry.type = record.mode.toNat &&& 0o170000
  mode : entry.mode = record.mode.toNat
  uid : entry.uid = record.uid.toNat
  gid : entry.gid = record.gid.toNat
  nlink : entry.nlink = record.nlink.toNat
  mtime : entry.mtime = record.mtime.toNat
  size : entry.size = record.data.length
  deviceMajor : entry.deviceMajor = record.deviceMajor.toNat
  deviceMinor : entry.deviceMinor = record.deviceMinor.toNat
  rdeviceMajor : entry.rdeviceMajor = record.rdeviceMajor.toNat
  rdeviceMinor : entry.rdeviceMinor = record.rdeviceMinor.toNat
  check : entry.check = record.check.toNat

theorem describes_entryAt (record : Record) (position : Nat) :
    record.Describes (record.entryAt position) :=
  ⟨rfl, rfl, rfl, rfl, rfl, rfl, rfl, rfl, rfl, rfl, rfl, rfl, rfl⟩

theorem data_entryAt (record : Record) (front back : Bytes) :
    (record.entryAt front.length).data (front ++ record.encode ++ back) = record.data := by
  have split : front ++ record.encode ++ back =
      front ++ record.header ++ encodeUtf8 record.name ++ [0] ++ record.nameGap ++ record.data ++
        (record.dataGap ++ back) := by
    simp [encode]
  rw [split, Entry.data]
  apply slice_middle
  all_goals
    simp only [List.length_append, length_header, List.length_singleton, nameSize]
    omega

end Record

/-- The record of a regular file owned by root, with zero bytes in its gaps. -/
def Record.plain (name : String) (data : Bytes)
    (nameShort : (encodeUtf8 name).length + 1 < 2 ^ 32) (dataShort : data.length < 2 ^ 32) :
    Record where
  checksummed := false
  inode := 1
  mode := 0o100644
  uid := 0
  gid := 0
  nlink := 1
  mtime := 0
  deviceMajor := 0
  deviceMinor := 0
  rdeviceMajor := 0
  rdeviceMinor := 0
  check := 0
  upper := fun _ _ => true
  name := name
  data := data
  nameGap := List.replicate ((4 - (110 + (encodeUtf8 name).length + 1) % 4) % 4) 0
  dataGap := List.replicate ((4 - data.length % 4) % 4) 0
  name_short := nameShort
  data_short := dataShort
  name_aligned := List.length_replicate
  data_aligned := List.length_replicate

/-- An archive: records, the trailer record that ends them, and zero padding. -/
structure Archive where
  records : List Record
  trailer : Record
  padding : Nat
  named : ∀ record ∈ records, record.name ≠ trailerName
  trailer_named : trailer.name = trailerName
  trailer_empty : trailer.data = []

namespace Archive

def body (records : List Record) : Bytes := records.flatMap Record.encode

def encode (archive : Archive) : Bytes :=
  body archive.records ++ archive.trailer.encode ++ List.replicate archive.padding 0

/-- The entries of consecutive records, the first of them at `position`. -/
def entriesFrom (position : Nat) : List Record → List Entry
  | [] => []
  | record :: rest => record.entryAt position :: entriesFrom (position + record.encode.length) rest

theorem length_body_mod (records : List Record) : (body records).length % 4 = 0 := by
  induction records with
  | nil => rfl
  | cons record rest ih =>
      have first := record.length_encode_mod
      simp only [body, List.flatMap_cons, List.length_append] at ih ⊢
      omega

/-- The loop collects the entries of the records that follow any aligned prefix. -/
theorem records_encode (archive : Archive) (front : Bytes) (pending : List Record)
    (aligned4 : front.length % 4 = 0) (named : ∀ record ∈ pending, record.name ≠ trailerName)
    (back : Bytes) :
    Records (front ++ body pending ++ archive.trailer.encode ++ back) front.length
      (entriesFrom front.length pending)
      (front.length + (body pending).length + archive.trailer.encode.length : Nat) := by
  induction pending generalizing front with
  | nil =>
      have read := archive.trailer.readRecord_encode front back aligned4
      have positive := archive.trailer.length_encode
      simp only [body, List.flatMap_nil, List.append_nil, List.length_nil, Nat.add_zero]
      refine .trailer ?_ read archive.trailer_named ?_
      · simp only [List.length_append]
        omega
      · simp [Record.entryAt, makeEntry, Record.fields, archive.trailer_empty]
  | cons record rest ih =>
      have positive := record.length_encode
      have advanced : (front ++ record.encode).length % 4 = 0 := by
        have step := record.length_encode_mod
        rw [List.length_append]
        omega
      have later := ih (front ++ record.encode) advanced fun other member =>
        named other (by simp [member])
      have read := record.readRecord_encode front
        (body rest ++ archive.trailer.encode ++ back) aligned4
      have blob : front ++ body (record :: rest) ++ archive.trailer.encode ++ back =
          front ++ record.encode ++ (body rest ++ archive.trailer.encode ++ back) := by
        simp [body]
      have blobLater : front ++ record.encode ++ body rest ++ archive.trailer.encode ++ back =
          front ++ record.encode ++ (body rest ++ archive.trailer.encode ++ back) := by
        simp
      have final : (front.length + (body (record :: rest)).length + archive.trailer.encode.length : Nat) =
          ((front ++ record.encode).length + (body rest).length + archive.trailer.encode.length : Nat) := by
        simp [body, Nat.add_assoc]
      rw [blobLater, List.length_append] at later
      rw [blob, final, List.length_append]
      refine .entry ?_ read (named record (by simp)) later
      simp only [List.length_append]
      omega

theorem data_entriesFrom (front back : Bytes) (pending : List Record) :
    List.Forall₂ (fun record entry => record.Describes entry ∧
        entry.data (front ++ body pending ++ back) = record.data)
      pending (entriesFrom front.length pending) := by
  induction pending generalizing front with
  | nil => exact .nil
  | cons record rest ih =>
      have blob : front ++ body (record :: rest) ++ back =
          front ++ record.encode ++ (body rest ++ back) := by
        simp [body]
      have later := ih (front ++ record.encode)
      rw [List.length_append, List.append_assoc _ (body rest)] at later
      rw [blob]
      exact .cons ⟨record.describes_entryAt _, record.data_entryAt front _⟩ later

theorem records_from_start (archive : Archive) :
    Records archive.encode 0 (entriesFrom 0 archive.records)
      ((body archive.records).length + archive.trailer.encode.length : Nat) := by
  have run := archive.records_encode [] archive.records rfl archive.named
    (List.replicate archive.padding 0)
  simpa [encode] using run

theorem zero_tail (archive : Archive) :
    ∀ byte ∈ sliceFrom archive.encode
      ((body archive.records).length + archive.trailer.encode.length : Nat), byte = 0 := by
  intro byte member
  rw [sliceFrom_natCast, encode, ← List.length_append, List.drop_left] at member
  exact List.eq_of_mem_replicate member

@[simp] theorem length_entriesFrom (position : Nat) (pending : List Record) :
    (entriesFrom position pending).length = pending.length := by
  induction pending generalizing position with
  | nil => rfl
  | cons record rest ih => simp [entriesFrom, ih]

/-- The header offsets of an encoded archive are the starts of its records. -/
theorem visited_encode (archive : Archive) {offset : Int}
    (visited : Visited archive.encode offset) :
    ∃ front pending, archive.records = front ++ pending ∧ offset = (body front).length := by
  induction visited with
  | start => exact ⟨[], archive.records, rfl, rfl⟩
  | @next offset nextOffset entry _ _ read notTrailer ih =>
      obtain ⟨front, pending, split, rfl⟩ := ih
      have encoded : archive.encode = body front ++ body pending ++ archive.trailer.encode ++
          List.replicate archive.padding 0 := by
        rw [encode, split]
        simp [body]
      cases pending with
      | nil =>
          have trailerRead := archive.trailer.readRecord_encode (body front)
            (List.replicate archive.padding 0) (length_body_mod front)
          rw [encoded] at read
          simp only [body, List.flatMap_nil, List.append_nil] at read trailerRead
          rw [trailerRead] at read
          cases read
          exact absurd archive.trailer_named notTrailer
      | cons record rest =>
          have recordRead := record.readRecord_encode (body front)
            (body rest ++ archive.trailer.encode ++ List.replicate archive.padding 0)
            (length_body_mod front)
          have blob : archive.encode = body front ++ record.encode ++
              (body rest ++ archive.trailer.encode ++ List.replicate archive.padding 0) := by
            rw [encoded]
            simp [body]
          rw [blob, recordRead] at read
          cases read
          exact ⟨front ++ [record], rest, by simp [split], by simp [body]⟩

/-- Every writer of the format spells the numeric fields with plain digits. -/
theorem hexHeaders (archive : Archive) : HexHeaders archive.encode := by
  intro offset visited _
  obtain ⟨front, pending, split, rfl⟩ := archive.visited_encode visited
  obtain ⟨record, back, blob⟩ : ∃ record back, archive.encode = body front ++ Record.encode record ++ back := by
    cases pending with
    | nil =>
        refine ⟨archive.trailer, List.replicate archive.padding 0, ?_⟩
        rw [encode, split, List.append_nil]
    | cons record rest =>
        refine ⟨record, body rest ++ archive.trailer.encode ++ List.replicate archive.padding 0, ?_⟩
        rw [encode, split]
        simp [body]
  have header : slice archive.encode (body front).length ((body front).length + 110 : Nat) =
      record.header := by
    have parts : body front ++ record.encode ++ back = body front ++ record.header ++
        (encodeUtf8 record.name ++ [0] ++ record.nameGap ++ record.data ++ record.dataGap ++ back) := by
      simp [Record.encode]
    rw [blob, parts]
    exact slice_middle _ _ _ _ _ rfl (by rw [record.length_header])
  have headerEnd : ((body front).length : Int) + 110 = ((body front).length + 110 : Nat) := by omega
  rw [headerEnd, header]
  exact record.header_hex

/-- The archive of one regular file. -/
def single (name : String) (data : Bytes) (notTrailer : name ≠ trailerName)
    (nameShort : (encodeUtf8 name).length + 1 < 2 ^ 32) (dataShort : data.length < 2 ^ 32) :
    Archive where
  records := [.plain name data nameShort dataShort]
  trailer := .plain trailerName [] (by decide) (by decide)
  padding := 0
  named := by simpa [Record.plain] using notTrailer
  trailer_named := rfl
  trailer_empty := rfl

/-- The records of one archive in front of those of another. -/
def join (first second : Archive) : Archive where
  records := first.records ++ second.records
  trailer := second.trailer
  padding := second.padding
  named := by
    intro record member
    cases List.mem_append.mp member with
    | inl front => exact first.named record front
    | inr back => exact second.named record back
  trailer_named := second.trailer_named
  trailer_empty := second.trailer_empty

end Archive

/-- `parse_newc` undoes the encoding: it returns exactly the encoded entries, in
order, with their metadata and data. -/
theorem parseNewc_encode (archive : Archive) (extra : Nat) :
    ∃ entries, parseNewc (archive.records.length + 1 + extra) archive.encode = some (.ok entries) ∧
      List.Forall₂ (fun record entry => record.Describes entry ∧
          entry.data archive.encode = record.data)
        archive.records entries := by
  refine ⟨Archive.entriesFrom 0 archive.records, ?_, ?_⟩
  · refine parseNewc_eq_ok_iff.mpr ⟨?_, _, archive.records_from_start, archive.zero_tail⟩
    rw [Archive.length_entriesFrom]
    omega
  · have described := Archive.data_entriesFrom []
      (archive.trailer.encode ++ List.replicate archive.padding 0) archive.records
    simpa [Archive.encode] using described

end DashTwrp.Newc
