import DashTwrp.Newc.Parse
import Mathlib.Data.List.Pairwise

namespace DashTwrp.Newc

open DashTwrp.Python

/-! Where the records of an archive lie.

When no header carries a negative size, the loop only moves forward and the
header, the name and the data of every record occupy ranges of their own.  An
edit inside the data of one entry is then invisible to the parser.
-/

variable {blob : Bytes} {offset nextOffset final : Int} {entry : Entry} {entries : List Entry}

/-- The header offsets the loop reaches. -/
inductive Visited (blob : Bytes) : Int → Prop where
  | start : Visited blob 0
  | next {offset nextOffset : Int} {entry : Entry} :
      Visited blob offset → offset < blob.length →
      readRecord blob offset = .ok (entry, nextOffset) → entry.path ≠ trailerName →
      Visited blob nextOffset

def ForwardSizes (blob : Bytes) : Prop :=
  ∀ offset entry nextOffset, Visited blob offset →
    readRecord blob offset = .ok (entry, nextOffset) → 0 ≤ entry.size

/-- `range(6, 110, 8)` -/
def fieldOffsets : List Nat := List.range' 6 13 8

/-- Every numeric field of a header is eight hexadecimal digits. -/
def HexHeader (header : Bytes) : Prop :=
  ∀ index ∈ fieldOffsets, (slice header index (index + 8 : Nat)).length = 8 ∧
    ∀ byte ∈ slice header index (index + 8 : Nat), isHexDigit byte = true

def HexHeaders (blob : Bytes) : Prop :=
  ∀ offset, Visited blob offset → offset + 110 ≤ blob.length →
    HexHeader (slice blob offset (offset + 110))

theorem le_aligned (value : Int) : value ≤ aligned value := by
  unfold aligned
  omega

/-- A field of eight digits is read as a number of 32 bits. -/
theorem HexHeader.field {header : Bytes} (hex : HexHeader header) {index : Nat}
    (isField : index ∈ fieldOffsets) :
    numericField header index = some (hexValue (slice header index (index + 8 : Nat)) : Int) := by
  obtain ⟨width, digits⟩ := hex index isField
  apply intBase16_of_digits _ _ digits
  intro empty
  rw [empty] at width
  contradiction

theorem numericFields_size {header : Bytes} {fields : Fields}
    (read : numericFields header = some fields) : numericField header 54 = some fields.size := by
  unfold numericFields at read
  iterate 6 obtain ⟨_, _, read⟩ := Option.bind_eq_some_iff.mp read
  obtain ⟨size, sizeRead, read⟩ := Option.bind_eq_some_iff.mp read
  iterate 6 obtain ⟨_, _, read⟩ := Option.bind_eq_some_iff.mp read
  cases read
  exact sizeRead

theorem HexHeaders.forwardSizes (hex : HexHeaders blob) : ForwardSizes blob := by
  intro offset entry nextOffset visited read
  obtain ⟨fields, name, type, wholeHeader, _, numeric, _, _, _, _, _, _, rfl, _⟩ :=
    readRecord_eq_ok_iff.mp read
  have sizeRead := numericFields_size numeric
  rw [(hex offset visited wholeHeader).field (by decide), Option.some.injEq] at sizeRead
  change 0 ≤ fields.size
  rw [← sizeRead]
  exact Int.natCast_nonneg _

/-- The ranges one record occupies. -/
theorem readRecord_extents (read : readRecord blob offset = .ok (entry, nextOffset))
    (size : 0 ≤ entry.size) :
    entry.headerStart = offset ∧ offset + 110 < entry.dataStart ∧
      entry.dataStart ≤ entry.dataEnd ∧ entry.dataEnd ≤ blob.length ∧
      entry.dataEnd ≤ nextOffset := by
  obtain ⟨fields, name, type, wholeHeader, _, _, named, nameFits, _, _, dataFits, _, rfl, rfl⟩ :=
    readRecord_eq_ok_iff.mp read
  have nameAligned := le_aligned (offset + 110 + fields.nameSize)
  have dataAligned := le_aligned (aligned (offset + 110 + fields.nameSize) + fields.size)
  refine ⟨rfl, ?_, ?_, dataFits, dataAligned⟩
  · change offset + 110 < aligned (offset + 110 + fields.nameSize)
    omega
  · exact Int.le_add_of_nonneg_right size

theorem Visited.nonneg (forward : ForwardSizes blob) (visited : Visited blob offset) :
    0 ≤ offset := by
  induction visited with
  | start => omega
  | next visited _ read _ ih =>
      have extents := readRecord_extents read (forward _ _ _ visited read)
      omega

/-- The records of a run lie one behind the other, between the offset it starts
at and the offset behind the trailer. -/
theorem Records.ordered (forward : ForwardSizes blob) (visited : Visited blob offset)
    (records : Records blob offset entries final) :
    offset ≤ final ∧
    (∀ entry ∈ entries, offset ≤ entry.headerStart ∧ entry.headerStart + 110 < entry.dataStart ∧
      entry.dataStart ≤ entry.dataEnd ∧ entry.dataEnd ≤ blob.length ∧ entry.dataEnd ≤ final) ∧
    entries.Pairwise fun earlier later => earlier.dataEnd ≤ later.headerStart := by
  induction records with
  | trailer inside read isTrailer empty =>
      have extents := readRecord_extents read (by omega)
      exact ⟨by omega, by simp, .nil⟩
  | entry inside read notTrailer records ih =>
      have extents := readRecord_extents read (forward _ _ _ visited read)
      obtain ⟨advance, within, apart⟩ := ih (.next visited inside read notTrailer)
      refine ⟨by omega, ?_, List.pairwise_cons.mpr ⟨?_, apart⟩⟩
      · intro other member
        rcases List.mem_cons.mp member with rfl | later
        · omega
        · have bounds := within other later
          omega
      · intro other later
        have bounds := within other later
        omega

/-- Two entries of a run lie one behind the other. -/
theorem Records.separate (forward : ForwardSizes blob) (visited : Visited blob offset)
    (records : Records blob offset entries final) {first second : Entry} (firstIn : first ∈ entries)
    (secondIn : second ∈ entries) (different : first ≠ second) :
    first.dataEnd ≤ second.headerStart ∨ second.dataEnd ≤ first.headerStart := by
  have symmetric : Std.Symm fun first second : Entry =>
      first.dataEnd ≤ second.headerStart ∨ second.dataEnd ≤ first.headerStart :=
    ⟨fun _ _ => Or.symm⟩
  have separated : entries.Pairwise fun first second =>
      first.dataEnd ≤ second.headerStart ∨ second.dataEnd ≤ first.headerStart :=
    (records.ordered forward visited).2.2.imp Or.inl
  exact separated.forall firstIn secondIn different

/-- A record reads the same from an archive that was edited elsewhere. -/
theorem readRecord_of_sameOutside {edited : Bytes} {start stop : Nat}
    (same : SameOutside start stop blob edited) (nonneg : 0 ≤ offset)
    (read : readRecord blob offset = .ok (entry, nextOffset))
    (apart : entry.dataStart ≤ start ∨ stop ≤ offset) :
    readRecord edited offset = .ok (entry, nextOffset) := by
  obtain ⟨fields, name, type, wholeHeader, magic, numeric, named, nameFits, terminated, decoded,
    dataFits, typed, made, next⟩ := readRecord_eq_ok_iff.mp read
  have dataStart : entry.dataStart = aligned (offset + 110 + fields.nameSize) := by rw [made]; rfl
  have nameAligned := le_aligned (offset + 110 + fields.nameSize)
  obtain ⟨position, rfl⟩ := Int.eq_ofNat_of_zero_le nonneg
  obtain ⟨nameLength, nameSize⟩ := Int.eq_ofNat_of_zero_le (show 0 ≤ fields.nameSize - 1 by omega)
  have headerEnd : (position : Int) + 110 = (position + 110 : Nat) := by omega
  have nameEnd : (position : Int) + 110 + fields.nameSize - 1 = (position + 110 + nameLength : Nat) := by
    omega
  have sameHeader := same.slice_eq position (position + 110) (by omega)
  have sameName := same.slice_eq (position + 110) (position + 110 + nameLength) (by omega)
  have sameTerminator := same.agree (position + 110 + nameLength) (by omega)
  rw [nameEnd, item_natCast] at terminated
  rw [headerEnd] at magic numeric
  rw [nameEnd, headerEnd] at decoded
  refine readRecord_eq_ok_iff.mpr ⟨fields, name, type, ?_, ?_, ?_, named, ?_, ?_, ?_, ?_, typed,
    made, next⟩
  · rwa [← same.length_eq]
  · rwa [headerEnd, ← sameHeader]
  · rwa [headerEnd, ← sameHeader]
  · rwa [← same.length_eq]
  · rwa [nameEnd, item_natCast, ← sameTerminator]
  · rwa [nameEnd, headerEnd, ← sameName]
  · rwa [← same.length_eq]

/-- A whole run reads the same when the edit lies in the data of one of its
entries, or in front of the run. -/
theorem Records.of_sameOutside {edited : Bytes} {start stop : Nat}
    (forward : ForwardSizes blob) (same : SameOutside start stop blob edited)
    (visited : Visited blob offset) (records : Records blob offset entries final)
    (contained : stop ≤ offset ∨
      ∃ target ∈ entries, target.dataStart ≤ start ∧ stop ≤ target.dataEnd) :
    Records edited offset entries final := by
  have length := same.length_eq
  induction records with
  | trailer inside read isTrailer empty =>
      have before : (stop : Int) ≤ _ := contained.resolve_right (by simp)
      exact .trailer (length ▸ inside)
        (readRecord_of_sameOutside same (visited.nonneg forward) read (.inr before)) isTrailer empty
  | @entry offset nextOffset final head rest inside read notTrailer records ih =>
      have extents := readRecord_extents read (forward _ _ _ visited read)
      have reached := Visited.next visited inside read notTrailer
      have ordered := (records.ordered forward reached).2.1
      have apart : head.dataStart ≤ start ∨ stop ≤ offset := by
        rcases contained with before | ⟨target, member, lower, upper⟩
        · exact .inr before
        · rcases List.mem_cons.mp member with rfl | later
          · exact .inl lower
          · have bounds := ordered target later
            exact .inl (by omega)
      refine .entry (length ▸ inside)
        (readRecord_of_sameOutside same (visited.nonneg forward) read apart) notTrailer
        (ih reached ?_)
      rcases contained with before | ⟨target, member, lower, upper⟩
      · exact .inl (by omega)
      · rcases List.mem_cons.mp member with rfl | later
        · exact .inl (by omega)
        · exact .inr ⟨target, later, lower, upper⟩

/-- An edit inside the data of one entry is invisible to the parser, and the
data of every other entry stays as it was. -/
theorem parseNewc_of_sameOutside {edited : Bytes} {start stop : Nat} {target : Entry}
    (forward : ForwardSizes blob) (same : SameOutside start stop blob edited)
    (records : Records blob 0 entries final) (zeros : ∀ byte ∈ sliceFrom blob final, byte = 0)
    (member : target ∈ entries) (lower : target.dataStart ≤ start) (upper : stop ≤ target.dataEnd) :
    Records edited 0 entries final ∧ (∀ byte ∈ sliceFrom edited final, byte = 0) ∧
      ∀ other ∈ entries, other ≠ target → other.data edited = other.data blob := by
  obtain ⟨nonneg, within, -⟩ := records.ordered forward .start
  have bounds := within target member
  refine ⟨records.of_sameOutside forward same .start (.inr ⟨target, member, lower, upper⟩), ?_, ?_⟩
  · obtain ⟨position, rfl⟩ := Int.eq_ofNat_of_zero_le nonneg
    rw [sliceFrom_natCast] at zeros ⊢
    rwa [← same.drop_eq position (by omega)]
  · intro other otherMember different
    have otherBounds := within other otherMember
    obtain ⟨dataStart, startEq⟩ := Int.eq_ofNat_of_zero_le (show 0 ≤ other.dataStart by omega)
    obtain ⟨dataEnd, endEq⟩ := Int.eq_ofNat_of_zero_le (show 0 ≤ other.dataEnd by omega)
    have separate : other.dataEnd ≤ target.dataStart ∨ target.dataEnd ≤ other.dataStart := by
      have order := records.separate forward .start otherMember member different
      omega
    rw [Entry.data, Entry.data, startEq, endEq]
    exact (same.slice_eq dataStart dataEnd (by omega)).symm

end DashTwrp.Newc
