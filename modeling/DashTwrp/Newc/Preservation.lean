import DashTwrp.Newc.Encoding
import DashTwrp.Newc.PropertyLines

namespace DashTwrp.Newc

open DashTwrp.Python

/-! `patch_properties` changes two bytes of the archive and nothing else. -/

variable {cpio output : Bytes} {entries : List Entry} {target : Entry} {report : PatchReport}

theorem mem_changedOffsets (sameLength : cpio.length = output.length) (index : Nat) :
    index ∈ changedOffsets cpio output ↔ output[index]? ≠ cpio[index]? := by
  simp only [changedOffsets, List.mem_map, List.mem_filter, List.mem_zipIdx_iff_getElem?,
    List.getElem?_zip_eq_some, bne_iff_ne, ne_eq]
  constructor
  · rintro ⟨⟨⟨old, new⟩, position⟩, ⟨⟨oldRead, newRead⟩, different⟩, rfl⟩
    rw [oldRead, newRead, Option.some.injEq]
    exact fun same => different same.symm
  · intro different
    by_cases inside : index < cpio.length
    · have insideOutput : index < output.length := sameLength ▸ inside
      rw [List.getElem?_eq_getElem inside, List.getElem?_eq_getElem insideOutput,
        Option.some.injEq] at different
      exact ⟨((cpio[index], output[index]), index), ⟨⟨List.getElem?_eq_getElem inside,
        List.getElem?_eq_getElem insideOutput⟩, fun same => different same.symm⟩, rfl⟩
    · rw [List.getElem?_eq_none (by omega), List.getElem?_eq_none (by omega)] at different
      contradiction

theorem nodup_changedOffsets (cpio output : Bytes) : (changedOffsets cpio output).Nodup := by
  have indices : ((cpio.zip output).zipIdx.map (·.2)).Nodup := by
    rw [List.zipIdx_map_snd]
    exact List.nodup_range'
  exact indices.sublist (List.filter_sublist.map _)

/-- One patch: an overwrite of one line of the data between `start` and `stop`. -/
structure Overwritten (archive edited : Bytes) (start stop hit : Nat) (old new : Bytes) : Prop where
  window : SameOutside (start + hit) (start + hit + old.length) archive edited
  inside : start + hit + old.length ≤ stop
  spelled : ∀ index < old.length, archive[start + hit + index]? = old[index]?
  written : ∀ index < old.length, edited[start + hit + index]? = new[index]?
  lines : splitlines (slice edited start stop) =
    (splitlines (slice archive start stop)).map (replaceLine old new)

theorem overwrite_line {archive : Bytes} {start stop hit : Nat} {old new : Bytes}
    (bound : stop ≤ archive.length) (ordered : start ≤ stop) (sameLength : old.length = new.length)
    (plain : Plain new) (nonempty : new ≠ [])
    (only : countExactLines (slice archive start stop) old = [hit]) :
    Overwritten archive
      (assign archive (start + hit : Nat) (start + hit + old.length : Nat) new)
      start stop hit old new := by
  have found : hit ∈ matchingLines old 0 (splitlines (slice archive start stop)) := by
    rw [countExactLines] at only
    rw [only]
    exact List.mem_singleton_self hit
  obtain ⟨front, back, spelling, position⟩ := matchingLines_spells found
  rw [flatten_splitlines] at spelling
  rw [Nat.zero_add] at position
  have length := congrArg List.length spelling
  simp only [length_slice, List.length_append] at length
  have inside : start + hit + old.length ≤ stop := by omega
  refine ⟨?_, inside, ?_, ?_, ?_⟩
  · rw [sameLength]
    exact (assign_sameOutside archive (start + hit) new (by omega)).symm
  · intro index small
    have read := congrArg (fun text => text[hit + index]?) spelling
    rw [List.append_assoc] at read
    simp only [getElem?_slice, position] at read
    rw [if_pos (by omega), List.getElem?_append_right (by omega), List.getElem?_append_left (by omega),
      Nat.add_sub_cancel_left, ← position, ← Nat.add_assoc] at read
    exact read
  · intro index small
    rw [getElem?_assign _ _ _ _ _ (by omega), if_neg (by omega), if_pos (by omega),
      Nat.add_sub_cancel_left]
  · have wellCut := lines_splitlines (slice archive start stop)
    rw [sameLength, slice_assign archive start stop hit new (by omega) bound, ← sameLength]
    have edited := overwrite_only_hit new only
    rw [flatten_splitlines, Nat.sub_zero] at edited
    rw [edited]
    exact splitlines_flatten (lines_map_replaceLine wellCut plain nonempty)

/-- The position of the value behind the `=` of a property line. -/
def PropertyPatch.valueOffset (patch : PropertyPatch) : Nat := patch.propertyName.length + 1

/-- What a successful patch of an archive did: `start` is where the data of the
`prop.default` entry starts, the last two numbers are the offsets of its two
property lines in that data. -/
structure OnlyValuesChanged (cpio output : Bytes) (report : PatchReport) (entries : List Entry)
    (target : Entry) (start secureAt debuggableAt : Nat) : Prop where
  only_target : entries.filter (fun entry => entry.path = propDefault) = [target]
  data_start : target.dataStart = start
  secure_line : countExactLines (target.data cpio) securePatch.oldLine = [secureAt]
  debuggable_line : countExactLines (target.data cpio) debuggablePatch.oldLine = [debuggableAt]
  length_eq : output.length = cpio.length
  apart : start + secureAt + securePatch.valueOffset ≠
    start + debuggableAt + debuggablePatch.valueOffset
  changed_iff : ∀ index, output[index]? ≠ cpio[index]? ↔ index ∈ report.changedOffsets
  changed_offsets : report.changedOffsets.Perm
    [start + secureAt + securePatch.valueOffset, start + debuggableAt + debuggablePatch.valueOffset]
  inside_target : ∀ index ∈ report.changedOffsets,
    target.dataStart ≤ index ∧ (index : Int) < target.dataEnd
  others_unchanged : ∀ entry ∈ entries, entry ≠ target → entry.data output = entry.data cpio
  lines_replaced : splitlines (target.data output) =
    ((splitlines (target.data cpio)).map (replaceLine securePatch.oldLine securePatch.newLine)).map
      (replaceLine debuggablePatch.oldLine debuggablePatch.newLine)

theorem newLine_plain : ∀ patch ∈ propertyPatches, Plain patch.newLine := by
  have every : (propertyPatches.all fun patch => patch.newLine.all (!isBreak ·)) = true := by decide
  intro patch member byte inLine
  have inside := List.all_eq_true.mp (List.all_eq_true.mp every patch member) byte inLine
  simpa using inside

/-- The two patched lines, and that each differs from its replacement in the
value byte only. -/
theorem patches_differ_in_value :
    (∀ patch ∈ propertyPatches, patch.oldLine.length = patch.newLine.length ∧
      patch.valueOffset < patch.oldLine.length ∧ patch.newLine ≠ [] ∧
      ∀ index < patch.oldLine.length,
        patch.newLine[index]? ≠ patch.oldLine[index]? ↔ index = patch.valueOffset) ∧
    debuggablePatch.oldLine ≠ securePatch.oldLine ∧
    debuggablePatch.oldLine ≠ securePatch.newLine := by
  decide

/-- The offsets at which two successive overwrites of separate windows differ
from the archive they started from. -/
theorem changed_by_two_patches {archive middle edited : Bytes} {start stop first second : Nat}
    (firstPatch secondPatch : PropertyPatch)
    (firstDiffers : ∀ index < firstPatch.oldLine.length,
      firstPatch.newLine[index]? ≠ firstPatch.oldLine[index]? ↔ index = firstPatch.valueOffset)
    (secondDiffers : ∀ index < secondPatch.oldLine.length,
      secondPatch.newLine[index]? ≠ secondPatch.oldLine[index]? ↔ index = secondPatch.valueOffset)
    (firstValue : firstPatch.valueOffset < firstPatch.oldLine.length)
    (secondValue : secondPatch.valueOffset < secondPatch.oldLine.length)
    (firstDone : Overwritten archive middle start stop first firstPatch.oldLine firstPatch.newLine)
    (secondDone : Overwritten middle edited start stop second
      secondPatch.oldLine secondPatch.newLine)
    (apart : first + firstPatch.oldLine.length ≤ second ∨
      second + secondPatch.oldLine.length ≤ first) (index : Nat) :
    edited[index]? ≠ archive[index]? ↔
      index = start + first + firstPatch.valueOffset ∨
        index = start + second + secondPatch.valueOffset := by
  by_cases inSecond : start + second ≤ index ∧ index < start + second + secondPatch.oldLine.length
  · obtain ⟨position, rfl⟩ := Nat.exists_eq_add_of_le inSecond.1
    rw [← firstDone.window.symm.agree (start + second + position) (by omega),
      secondDone.written position (by omega), secondDone.spelled position (by omega),
      secondDiffers position (by omega)]
    omega
  · rw [← secondDone.window.agree index (by omega)]
    by_cases inFirst : start + first ≤ index ∧ index < start + first + firstPatch.oldLine.length
    · obtain ⟨position, rfl⟩ := Nat.exists_eq_add_of_le inFirst.1
      rw [firstDone.written position (by omega), firstDone.spelled position (by omega),
        firstDiffers position (by omega)]
      omega
    · rw [← firstDone.window.agree index (by omega)]
      simp only [ne_eq, not_true, false_iff]
      omega

/-- The two overwrites of a successful patch, through the archive between them. -/
structure PatchRun (cpio output : Bytes) (entries : List Entry) (target : Entry)
    (start stop secureAt debuggableAt : Nat) (middle : Bytes) : Prop where
  only_target : entries.filter (fun entry => entry.path = propDefault) = [target]
  member : target ∈ entries
  data_start : target.dataStart = start
  data_end : target.dataEnd = stop
  bound : stop ≤ cpio.length
  secure_line : countExactLines (slice cpio start stop) securePatch.oldLine = [secureAt]
  debuggable_line : countExactLines (slice cpio start stop) debuggablePatch.oldLine = [debuggableAt]
  secure_done : Overwritten cpio middle start stop secureAt securePatch.oldLine securePatch.newLine
  debuggable_done : Overwritten middle output start stop debuggableAt
    debuggablePatch.oldLine debuggablePatch.newLine

/-- The two overwrites, once the lines are found. -/
theorem patchRun_of_lines {final : Int} {secureAt debuggableAt : Nat} (forward : ForwardSizes cpio)
    (records : Records cpio 0 entries final)
    (only : entries.filter (fun entry => entry.path = propDefault) = [target])
    (secureHit : countExactLines (target.data cpio) securePatch.oldLine = [secureAt])
    (debuggableHit : countExactLines (target.data cpio) debuggablePatch.oldLine = [debuggableAt]) :
    ∃ start stop middle, PatchRun cpio
      (assign
        (assign cpio (target.dataStart + secureAt)
          (target.dataStart + secureAt + securePatch.oldLine.length) securePatch.newLine)
        (target.dataStart + debuggableAt)
        (target.dataStart + debuggableAt + debuggablePatch.oldLine.length)
        debuggablePatch.newLine)
      entries target start stop secureAt debuggableAt middle := by
  have member : target ∈ entries := by
    have inFilter : target ∈ entries.filter (fun entry => entry.path = propDefault) := by
      rw [only]
      exact List.mem_singleton_self target
    exact (List.mem_filter.mp inFilter).1
  have bounds := (records.ordered forward .start).2.1 target member
  obtain ⟨start, startEq⟩ := Int.eq_ofNat_of_zero_le (show 0 ≤ target.dataStart by omega)
  obtain ⟨stop, stopEq⟩ := Int.eq_ofNat_of_zero_le (show 0 ≤ target.dataEnd by omega)
  have securePlain := newLine_plain securePatch (by simp [propertyPatches])
  have debuggablePlain := newLine_plain debuggablePatch (by simp [propertyPatches])
  obtain ⟨⟨⟨secureSame, _, secureNonempty, _⟩, debuggableSame, _, debuggableNonempty, _⟩,
    notOld, notNew⟩ := by
      simpa only [propertyPatches, List.forall_mem_cons, List.not_mem_nil, IsEmpty.forall_iff,
        implies_true, and_true] using patches_differ_in_value
  rw [Entry.data, startEq, stopEq] at secureHit debuggableHit
  have secureDone := overwrite_line (by omega) (by omega) secureSame securePlain secureNonempty
    secureHit
  -- The second line was counted in the data as it was before the first patch.
  have stillThere := debuggableHit
  rw [countExactLines, ← matchingLines_map_replaceLine (lines_splitlines _) securePlain secureSame
    notOld notNew, ← secureDone.lines, ← countExactLines] at stillThere
  have length := secureDone.window.length_eq
  have debuggableDone := overwrite_line (by omega) (by omega) debuggableSame debuggablePlain
    debuggableNonempty stillThere
  refine ⟨start, stop, _, only, member, startEq, stopEq, by omega, secureHit, debuggableHit,
    secureDone, ?_⟩
  rw [startEq]
  exact debuggableDone

theorem patchRun_of_patchEntries {final : Int} (sha256Bytes : Bytes → String)
    (forward : ForwardSizes cpio) (records : Records cpio 0 entries final)
    (patched : patchEntries sha256Bytes cpio entries = .ok (output, report)) :
    ∃ target start stop secureAt debuggableAt middle,
      PatchRun cpio output entries target start stop secureAt debuggableAt middle := by
  obtain ⟨target, secureAt, debuggableAt, only, _, secureHit, debuggableHit, edited, _, _⟩ :=
    patchEntries_eq_ok sha256Bytes patched
  obtain ⟨start, stop, middle, run⟩ :=
    patchRun_of_lines forward records only secureHit debuggableHit
  rw [← edited] at run
  exact ⟨target, start, stop, secureAt, debuggableAt, middle, run⟩

namespace PatchRun

variable {start stop secureAt debuggableAt : Nat} {middle : Bytes}

theorem sameOutside (run : PatchRun cpio output entries target start stop secureAt debuggableAt
    middle) : SameOutside start stop cpio output :=
  (run.secure_done.window.widen (by omega) run.secure_done.inside).trans
    (run.debuggable_done.window.widen (by omega) run.debuggable_done.inside)

/-- The two hits are lines that do not overlap. -/
theorem lines_apart (run : PatchRun cpio output entries target start stop secureAt debuggableAt
    middle) :
    secureAt + securePatch.oldLine.length ≤ debuggableAt ∨
      debuggableAt + debuggablePatch.oldLine.length ≤ secureAt := by
  have different : securePatch.oldLine ≠ debuggablePatch.oldLine := by decide
  have secureFound : secureAt ∈ matchingLines securePatch.oldLine 0
      (splitlines (slice cpio start stop)) := by
    rw [← countExactLines, run.secure_line]
    exact List.mem_singleton_self _
  have debuggableFound : debuggableAt ∈ matchingLines debuggablePatch.oldLine 0
      (splitlines (slice cpio start stop)) := by
    rw [← countExactLines, run.debuggable_line]
    exact List.mem_singleton_self _
  exact matchingLines_apart different secureFound debuggableFound

theorem differs_iff (run : PatchRun cpio output entries target start stop secureAt debuggableAt
    middle) (index : Nat) :
    output[index]? ≠ cpio[index]? ↔
      index = start + secureAt + securePatch.valueOffset ∨
        index = start + debuggableAt + debuggablePatch.valueOffset := by
  obtain ⟨⟨⟨_, secureValue, _, secureDiffers⟩, _, debuggableValue, _, debuggableDiffers⟩,
    _, _⟩ := by
      simpa only [propertyPatches, List.forall_mem_cons, List.not_mem_nil, IsEmpty.forall_iff,
        implies_true, and_true] using patches_differ_in_value
  have apart := run.lines_apart
  exact changed_by_two_patches securePatch debuggablePatch secureDiffers debuggableDiffers
    secureValue debuggableValue run.secure_done run.debuggable_done apart index

/-- The two value bytes are different bytes of the entry's data. -/
theorem values_apart (run : PatchRun cpio output entries target start stop secureAt debuggableAt
    middle) :
    start + secureAt + securePatch.valueOffset ≠
        start + debuggableAt + debuggablePatch.valueOffset ∧
      start + secureAt + securePatch.valueOffset < stop ∧
      start + debuggableAt + debuggablePatch.valueOffset < stop := by
  have lengths : securePatch.oldLine.length = 11 ∧ securePatch.valueOffset = 10 ∧
      debuggablePatch.oldLine.length = 15 ∧ debuggablePatch.valueOffset = 14 := by decide
  have apart := run.lines_apart
  have secureInside := run.secure_done.inside
  have debuggableInside := run.debuggable_done.inside
  omega

/-- The reported offsets are those of the two value bytes. -/
theorem changedOffsets_perm (run : PatchRun cpio output entries target start stop secureAt
    debuggableAt middle) :
    (changedOffsets cpio output).Perm [start + secureAt + securePatch.valueOffset,
      start + debuggableAt + debuggablePatch.valueOffset] := by
  obtain ⟨different, _, _⟩ := run.values_apart
  rw [List.perm_ext_iff_of_nodup (nodup_changedOffsets cpio output) (by simpa using different)]
  intro index
  rw [mem_changedOffsets run.sameOutside.length_eq, run.differs_iff]
  simp

end PatchRun

/-- Whenever the tool patches an archive with plain hexadecimal headers, the
patched archive parses to the same entries and differs from the original in the
value bytes of the two property lines only. -/
theorem patchProperties_changes_only_values (sha256Bytes : Bytes → String) (budget : Nat)
    (cpio output : Bytes) (report : PatchReport) (hex : HexHeaders cpio)
    (patched : patchProperties sha256Bytes budget cpio = some (.ok (output, report))) :
    ∃ entries target start secureAt debuggableAt,
      parseNewc budget cpio = some (.ok entries) ∧
      parseNewc budget output = some (.ok entries) ∧
      OnlyValuesChanged cpio output report entries target start secureAt debuggableAt := by
  unfold patchProperties at patched
  split at patched
  · contradiction
  · simp at patched
  · rename_i entries parsed
    rw [Option.some.injEq] at patched
    obtain ⟨enough, final, records, zeros⟩ := parseNewc_eq_ok_iff.mp parsed
    have forward := hex.forwardSizes
    obtain ⟨target, start, stop, secureAt, debuggableAt, middle, run⟩ :=
      patchRun_of_patchEntries sha256Bytes forward records patched
    obtain ⟨_, _, _, _, _, _, _, _, offsets, _⟩ := patchEntries_eq_ok sha256Bytes patched
    have same := run.sameOutside
    have startEq := run.data_start
    have stopEq := run.data_end
    obtain ⟨outputRecords, outputZeros, others⟩ := parseNewc_of_sameOutside forward same records
      zeros run.member (by omega) (by omega)
    have changed : ∀ index, index ∈ report.changedOffsets ↔
        index = start + secureAt + securePatch.valueOffset ∨
          index = start + debuggableAt + debuggablePatch.valueOffset := by
      intro index
      rw [offsets, run.changedOffsets_perm.mem_iff]
      simp
    obtain ⟨apart, secureInside, debuggableInside⟩ := run.values_apart
    refine ⟨entries, target, start, secureAt, debuggableAt, parsed,
      parseNewc_eq_ok_iff.mpr ⟨enough, final, outputRecords, outputZeros⟩, ?_⟩
    have dataRead : ∀ archive, target.data archive = slice archive start stop := by
      intro archive
      rw [Entry.data, startEq, stopEq]
    constructor
    case only_target => exact run.only_target
    case data_start => exact startEq
    case secure_line => rw [dataRead, run.secure_line]
    case debuggable_line => rw [dataRead, run.debuggable_line]
    case length_eq => exact same.length_eq.symm
    case apart => exact apart
    case changed_iff => intro index; rw [run.differs_iff, changed]
    case changed_offsets => exact offsets ▸ run.changedOffsets_perm
    case inside_target =>
      intro index listed
      have position := (changed index).mp listed
      omega
    case others_unchanged => exact others
    case lines_replaced =>
      rw [dataRead, dataRead, run.debuggable_done.lines, run.secure_done.lines]

/-- An archive whose only file is a `prop.default` with the given two lines. -/
def propArchive (secure debuggable : UInt8) : Archive :=
  .single propDefault
    (encodeUtf8 "ro.secure=" ++ [secure, 0x0d, 0x0a] ++ encodeUtf8 "ro.debuggable=" ++ [debuggable])
    (by decide) (by decide) (by rw [List.length_append]; simp; decide)

/-- The same behind another file. -/
def twoFilePropArchive (secure debuggable : UInt8) : Archive :=
  .join (.single "init.rc" (encodeUtf8 "on boot\n") (by decide) (by decide) (by decide))
    (propArchive secure debuggable)

theorem patchProperties_changes_only_values_twoFiles :
    ∃ report, patchProperties (fun _ => "") 3 (twoFilePropArchive 0x31 0x30).encode =
        some (.ok ((twoFilePropArchive 0x30 0x31).encode, report)) ∧
      ∃ entries target start secureAt debuggableAt,
        parseNewc 3 (twoFilePropArchive 0x31 0x30).encode = some (.ok entries) ∧
        parseNewc 3 (twoFilePropArchive 0x30 0x31).encode = some (.ok entries) ∧
        OnlyValuesChanged (twoFilePropArchive 0x31 0x30).encode
          (twoFilePropArchive 0x30 0x31).encode report entries target start secureAt
          debuggableAt := by
  have run : (patchProperties (fun _ => "") 3 (twoFilePropArchive 0x31 0x30).encode).map
      (fun result => result.toOption.map (·.1)) =
        some (some (twoFilePropArchive 0x30 0x31).encode) := by
    decide +kernel
  simp only [Option.map_eq_some_iff] at run
  obtain ⟨result, patched, ⟨output, report⟩, returned, rfl⟩ := run
  cases result with
  | error error => cases returned
  | ok value =>
      cases returned
      exact ⟨report, patched, patchProperties_changes_only_values (fun _ => "") 3 _ _ report
        (twoFilePropArchive 0x31 0x30).hexHeaders patched⟩

end DashTwrp.Newc
