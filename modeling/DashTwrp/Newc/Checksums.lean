import DashTwrp.Newc.Preservation
import Mathlib.Algebra.GroupWithZero.Nat

namespace DashTwrp.Newc

open DashTwrp.Python

/-! The check fields of an archive in the CRC format, which the tool never reads.

They stay right because the two patches together leave the sum of the bytes as
it was: one value goes down by one and the other goes up by one. -/

variable {cpio output : Bytes} {entries : List Entry} {target : Entry}

/-- The magic of the CRC format. -/
def crcMagic : Bytes := [0x30, 0x37, 0x30, 0x37, 0x30, 0x32]

/-- The magic of an entry's header. -/
def Entry.magic (entry : Entry) (blob : Bytes) : Bytes :=
  slice blob entry.headerStart (entry.headerStart + 6)

def byteSum (data : Bytes) : Nat := (data.map UInt8.toNat).sum

/-- The check field of every regular file in the CRC format is the sum of its
data modulo `2 ^ 32`. -/
def ChecksValid (blob : Bytes) (entries : List Entry) : Prop :=
  ∀ entry ∈ entries, entry.type = regularFile → entry.magic blob = crcMagic →
    entry.check = (byteSum (entry.data blob) % 2 ^ 32 : Nat)

instance (blob : Bytes) (entries : List Entry) : Decidable (ChecksValid blob entries) :=
  inferInstanceAs (Decidable (∀ entry ∈ entries, entry.type = regularFile →
    entry.magic blob = crcMagic → entry.check = (byteSum (entry.data blob) % 2 ^ 32 : Nat)))

theorem byteSum_append (front back : Bytes) :
    byteSum (front ++ back) = byteSum front + byteSum back := by
  rw [byteSum, List.map_append, List.sum_append, byteSum, byteSum]

/-- What stands at `start` is spelled by the bytes there. -/
theorem slice_of_spelled {archive text : Bytes} {start : Nat}
    (spelled : ∀ index < text.length, archive[start + index]? = text[index]?) :
    slice archive start (start + text.length : Nat) = text := by
  apply List.ext_getElem?
  intro index
  rw [getElem?_slice]
  by_cases inside : index < text.length
  · rw [if_pos (by omega), spelled index inside]
  · rw [if_neg (by omega), List.getElem?_eq_none (by omega)]

/-- An overwrite exchanges the sum of the old line for that of the new one. -/
theorem Overwritten.byteSum {archive edited : Bytes} {start stop hit : Nat} {old new : Bytes}
    (done : Overwritten archive edited start stop hit old new)
    (sameLength : old.length = new.length) :
    byteSum (slice edited start stop) + byteSum old =
      byteSum (slice archive start stop) + byteSum new := by
  have inside := done.inside
  have cut : ∀ text : Bytes, slice text start stop =
      slice text start (start + hit : Nat) ++
        (slice text (start + hit : Nat) (start + hit + old.length : Nat) ++
          slice text (start + hit + old.length : Nat) stop) := by
    intro text
    rw [slice_append_slice text (by omega) inside, slice_append_slice text (by omega) (by omega)]
  have front := done.window.slice_eq start (start + hit) (by omega)
  have back := done.window.slice_eq (start + hit + old.length) stop (by omega)
  have oldHere := slice_of_spelled done.spelled
  have newHere : slice edited (start + hit : Nat) (start + hit + new.length : Nat) = new :=
    slice_of_spelled fun index small => done.written index (by omega)
  rw [← sameLength] at newHere
  rw [cut edited, cut archive, front, back, oldHere, newHere]
  simp only [byteSum_append]
  omega

/-- The two patches together keep the sum of the entry's bytes. -/
theorem PatchRun.byteSum {start stop secureAt debuggableAt : Nat} {middle : Bytes}
    (run : PatchRun cpio output entries target start stop secureAt debuggableAt middle) :
    byteSum (target.data output) = byteSum (target.data cpio) := by
  have lengths : securePatch.oldLine.length = securePatch.newLine.length ∧
      debuggablePatch.oldLine.length = debuggablePatch.newLine.length := by decide
  have sums : Newc.byteSum securePatch.oldLine = Newc.byteSum securePatch.newLine + 1 ∧
      Newc.byteSum debuggablePatch.newLine = Newc.byteSum debuggablePatch.oldLine + 1 := by decide
  have secure := run.secure_done.byteSum lengths.1
  have debuggable := run.debuggable_done.byteSum lengths.2
  rw [Entry.data, Entry.data, run.data_start, run.data_end]
  omega

/-- No header of a run lies inside the data of an entry. -/
theorem Records.magic_of_sameOutside {final : Int} {start stop : Nat} (forward : ForwardSizes cpio)
    (same : SameOutside start stop cpio output) (records : Records cpio 0 entries final)
    (member : target ∈ entries) (lower : target.dataStart ≤ start) (upper : stop ≤ target.dataEnd)
    {entry : Entry} (listed : entry ∈ entries) : entry.magic output = entry.magic cpio := by
  have within := (records.ordered forward .start).2.1
  have bounds := within entry listed
  have targetBounds := within target member
  obtain ⟨position, header⟩ := Int.eq_ofNat_of_zero_le bounds.1
  have apart : position + 6 ≤ start ∨ stop ≤ position := by
    by_cases isTarget : entry = target
    · subst isTarget
      omega
    · have order := records.separate forward .start listed member isTarget
      omega
  have headerEnd : (position : Int) + 6 = (position + 6 : Nat) := by omega
  rw [Entry.magic, Entry.magic, header, headerEnd]
  exact (same.slice_eq position (position + 6) apart).symm

/-- A patched archive in the CRC format is as valid as it was: the check fields
are not rewritten and need not be. -/
theorem patchProperties_keeps_checks (sha256Bytes : Bytes → String) (budget : Nat)
    (cpio output : Bytes) (report : PatchReport) (hex : HexHeaders cpio)
    (patched : patchProperties sha256Bytes budget cpio = some (.ok (output, report))) :
    ∃ before after, parseNewc budget cpio = some (.ok before) ∧
      parseNewc budget output = some (.ok after) ∧
      (ChecksValid cpio before → ChecksValid output after) := by
  cases parsed : parseNewc budget cpio with
  | none => simp [patchProperties, parsed] at patched
  | some result =>
      cases result with
      | error error => simp [patchProperties, parsed] at patched
      | ok entries =>
          simp only [patchProperties, parsed, Option.some.injEq] at patched
          obtain ⟨enough, final, records, zeros⟩ := parseNewc_eq_ok_iff.mp parsed
          have forward := hex.forwardSizes
          obtain ⟨target, start, stop, secureAt, debuggableAt, middle, run⟩ :=
            patchRun_of_patchEntries sha256Bytes forward records patched
          have startEq := run.data_start
          have stopEq := run.data_end
          obtain ⟨outputRecords, outputZeros, others⟩ := parseNewc_of_sameOutside forward
            run.sameOutside records zeros run.member (by omega) (by omega)
          refine ⟨entries, entries, rfl,
            parseNewc_eq_ok_iff.mpr ⟨enough, final, outputRecords, outputZeros⟩, ?_⟩
          intro valid entry listed regular crc
          rw [records.magic_of_sameOutside forward run.sameOutside run.member (by omega) (by omega)
            listed] at crc
          rw [valid entry listed regular crc]
          by_cases isTarget : entry = target
          · rw [isTarget, run.byteSum]
          · rw [others entry listed isTarget]

/-- The `prop.default` archive in the CRC format. -/
def crcArchive (secure debuggable : UInt8) : Archive where
  records := (propArchive secure debuggable).records.map fun record =>
    { record with checksummed := true, check := 2457 }
  trailer := (propArchive secure debuggable).trailer
  padding := 0
  named := by
    intro record member
    obtain ⟨plain, listed, rfl⟩ := List.mem_map.mp member
    exact (propArchive secure debuggable).named plain listed
  trailer_named := rfl
  trailer_empty := rfl

theorem patchProperties_keeps_checks_crcArchive :
    ∃ report, patchProperties (fun _ => "") 2 (crcArchive 0x31 0x30).encode =
        some (.ok ((crcArchive 0x30 0x31).encode, report)) ∧
      ∃ before after, parseNewc 2 (crcArchive 0x31 0x30).encode = some (.ok before) ∧
        parseNewc 2 (crcArchive 0x30 0x31).encode = some (.ok after) ∧
        ChecksValid (crcArchive 0x31 0x30).encode before ∧
        ChecksValid (crcArchive 0x30 0x31).encode after := by
  have run : (patchProperties (fun _ => "") 2 (crcArchive 0x31 0x30).encode).map
      (fun result => result.toOption.map (·.1)) = some (some (crcArchive 0x30 0x31).encode) := by
    decide +kernel
  have valid : (parseNewc 2 (crcArchive 0x31 0x30).encode).map (fun result =>
      result.toOption.map fun entries => decide (ChecksValid (crcArchive 0x31 0x30).encode entries)) =
        some (some true) := by
    decide +kernel
  simp only [Option.map_eq_some_iff] at run
  obtain ⟨result, patched, ⟨output, report⟩, returned, rfl⟩ := run
  cases result with
  | error error => cases returned
  | ok value =>
      cases returned
      obtain ⟨before, after, parsed, reparsed, keeps⟩ := patchProperties_keeps_checks (fun _ => "") 2
        _ _ report (crcArchive 0x31 0x30).hexHeaders patched
      rw [parsed] at valid
      have validBefore := of_decide_eq_true (Option.some.inj (Option.some.inj valid))
      exact ⟨report, patched, before, after, parsed, reparsed, validBefore, keeps validBefore⟩

end DashTwrp.Newc
