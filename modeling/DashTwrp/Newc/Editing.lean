import DashTwrp.Newc.Acceptance

namespace DashTwrp.Newc

open DashTwrp.Python

/-! `patch_properties` as an edit of archives.

The tool edits bytes in place.  On the archive that the bytes encode this is an
exchange of the two property lines in the data of one record. -/

variable (sha256Bytes : Bytes → String)

/-- The lines of a property file with the content of both property lines exchanged. -/
def patchedData (data : Bytes) : Bytes :=
  (((splitlines data).map (replaceLine securePatch.oldLine securePatch.newLine)).map
    (replaceLine debuggablePatch.oldLine debuggablePatch.newLine)).flatten

theorem length_flatten_replaceLine {old new : Bytes} (sameLength : old.length = new.length)
    (lines : List Bytes) : (lines.map (replaceLine old new)).flatten.length = lines.flatten.length := by
  induction lines with
  | nil => rfl
  | cons line rest ih =>
      rw [List.map_cons, List.flatten_cons, List.flatten_cons, List.length_append,
        List.length_append, ih, length_replaceLine sameLength]

@[simp] theorem length_patchedData (data : Bytes) : (patchedData data).length = data.length := by
  have secure : securePatch.oldLine.length = securePatch.newLine.length := by decide
  have debuggable : debuggablePatch.oldLine.length = debuggablePatch.newLine.length := by decide
  rw [patchedData, length_flatten_replaceLine debuggable, length_flatten_replaceLine secure,
    flatten_splitlines]

/-- A record with other data of the same length. -/
def Record.withData (record : Record) (data : Bytes) (same : data.length = record.data.length) :
    Record :=
  { record with
    data
    data_short := same ▸ record.data_short
    data_aligned := same ▸ record.data_aligned }

def Record.patched (record : Record) : Record :=
  if record.name = propDefault then record.withData (patchedData record.data) (length_patchedData _)
  else record

theorem Record.name_patched (record : Record) : record.patched.name = record.name := by
  unfold patched
  split <;> rfl

theorem Record.patched_of_ne {record : Record} (other : record.name ≠ propDefault) :
    record.patched = record := if_neg other

/-- The bytes of a record in front of its data. -/
def Record.front (record : Record) : Bytes :=
  record.header ++ encodeUtf8 record.name ++ [0] ++ record.nameGap

theorem Record.encode_front (record : Record) :
    record.encode = record.front ++ record.data ++ record.dataGap := rfl

theorem Record.encode_patched {record : Record} (named : record.name = propDefault) :
    record.patched.encode = record.front ++ patchedData record.data ++ record.dataGap := by
  have same : record.patched = record.withData (patchedData record.data) (length_patchedData _) :=
    if_pos named
  have values : (record.withData (patchedData record.data) (length_patchedData _)).fieldValues =
      record.fieldValues := by
    simp [fieldValues, withData, nameSize]
  rw [same, encode, header, spelledFields, values]
  rfl

namespace Archive

/-- The archive with both property lines exchanged. -/
def patched (archive : Archive) : Archive where
  records := archive.records.map Record.patched
  trailer := archive.trailer
  padding := archive.padding
  named := by
    intro record member
    obtain ⟨before, listed, rfl⟩ := List.mem_map.mp member
    rw [before.name_patched]
    exact archive.named before listed
  trailer_named := archive.trailer_named
  trailer_empty := archive.trailer_empty

/-- The one `prop.default` of an archive, with both lines to patch and neither of the new ones. -/
structure Patchable (archive : Archive) (target : Record) : Prop where
  only_target : archive.records.filter (fun record => record.name = propDefault) = [target]
  regular : target.mode.toNat &&& 0o170000 = regularFile
  old_once : ∀ patch ∈ propertyPatches, (contents target.data).count patch.oldLine = 1
  new_absent : ∀ patch ∈ propertyPatches, (contents target.data).count patch.newLine = 0

theorem body_append (front back : List Record) : body (front ++ back) = body front ++ body back :=
  List.flatMap_append

theorem entriesFrom_append (position : Nat) (front back : List Record) :
    entriesFrom position (front ++ back) =
      entriesFrom position front ++ entriesFrom (position + (body front).length) back := by
  induction front generalizing position with
  | nil => rfl
  | cons record rest ih =>
      rw [List.cons_append, entriesFrom, ih, entriesFrom, List.cons_append, body, body,
        List.flatMap_cons, List.length_append, Nat.add_assoc]

theorem filter_entriesFrom {pending : List Record}
    (others : ∀ record ∈ pending, record.name ≠ propDefault) (position : Nat) :
    (entriesFrom position pending).filter (fun entry => entry.path = propDefault) = [] := by
  induction pending generalizing position with
  | nil => rfl
  | cons record rest ih =>
      have path : (record.entryAt position).path = record.name := rfl
      rw [entriesFrom, List.filter_cons_of_neg, ih fun other member => others other (by simp [member])]
      simpa [path] using others record (by simp)

/-- The records around the one of `prop.default`. -/
structure Around (archive : Archive) (front : List Record) (target : Record)
    (back : List Record) : Prop where
  records : archive.records = front ++ target :: back
  named : target.name = propDefault
  before : ∀ record ∈ front, record.name ≠ propDefault
  behind : ∀ record ∈ back, record.name ≠ propDefault

theorem around_of_filter {archive : Archive} {target : Record}
    (only : archive.records.filter (fun record => record.name = propDefault) = [target]) :
    ∃ front back, archive.Around front target back := by
  obtain ⟨front, back, records, before, named, behind⟩ := List.filter_eq_cons_iff.mp only
  refine ⟨front, back, records, by simpa using named, ?_, ?_⟩
  · simpa using before
  · simpa [List.filter_eq_nil_iff] using behind

namespace Around

variable {archive : Archive} {front back : List Record} {target : Record}

theorem only_target (around : archive.Around front target back) :
    archive.records.filter (fun record => record.name = propDefault) = [target] := by
  have before : front.filter (fun record => record.name = propDefault) = [] := by
    simpa [List.filter_eq_nil_iff] using around.before
  have behind : back.filter (fun record => record.name = propDefault) = [] := by
    simpa [List.filter_eq_nil_iff] using around.behind
  rw [around.records, List.filter_append, before, List.filter_cons_of_pos (by simp [around.named]),
    behind, List.nil_append]

/-- What stands in front of the data of `prop.default`. -/
def frontBytes (front : List Record) (target : Record) : Bytes := body front ++ target.front

/-- What stands behind it. -/
def backBytes (archive : Archive) (target : Record) (back : List Record) : Bytes :=
  target.dataGap ++ body back ++ archive.trailer.encode ++ List.replicate archive.padding 0

theorem encode (around : archive.Around front target back) :
    archive.encode = frontBytes front target ++ target.data ++ backBytes archive target back := by
  rw [Archive.encode, around.records, body_append, frontBytes, backBytes]
  simp [body, target.encode_front]

theorem encode_patched (around : archive.Around front target back) :
    archive.patched.encode =
      frontBytes front target ++ patchedData target.data ++ backBytes archive target back := by
  have unchanged {records : List Record} (others : ∀ record ∈ records, record.name ≠ propDefault) :
      records.map Record.patched = records :=
    (List.map_congr_left fun record member => Record.patched_of_ne (others record member)).trans
      (List.map_id records)
  have records : archive.patched.records = archive.records.map Record.patched := rfl
  rw [Archive.encode, records, around.records, List.map_append, List.map_cons,
    unchanged around.before, unchanged around.behind, body_append, frontBytes, backBytes]
  simp [body, patched, Record.encode_patched around.named]

theorem only_entry (around : archive.Around front target back) :
    (entriesFrom 0 archive.records).filter (fun entry => entry.path = propDefault) =
      [target.entryAt (body front).length] := by
  have path : (target.entryAt (body front).length).path = target.name := rfl
  rw [around.records, entriesFrom_append, List.filter_append, filter_entriesFrom around.before,
    Nat.zero_add, entriesFrom, List.filter_cons_of_pos (by simp [path, around.named]),
    filter_entriesFrom around.behind, List.nil_append]

theorem data_entry (around : archive.Around front target back) :
    (target.entryAt (body front).length).data archive.encode = target.data := by
  have blob : archive.encode = body front ++ target.encode ++
      (body back ++ archive.trailer.encode ++ List.replicate archive.padding 0) := by
    rw [around.encode, frontBytes, backBytes, target.encode_front]
    simp
  rw [blob]
  exact target.data_entryAt _ _

theorem dataStart_entry (front : List Record) (target : Record) :
    (target.entryAt (body front).length).dataStart = ((frontBytes front target).length : Nat) ∧
      (target.entryAt (body front).length).dataEnd =
        ((frontBytes front target).length + target.data.length : Nat) := by
  simp only [Record.entryAt, makeEntry, frontBytes, Record.front, List.length_append,
    target.length_header, Record.nameSize, List.length_singleton]
  omega

end Around

theorem length_filter_entriesFrom (position : Nat) (pending : List Record) :
    ((entriesFrom position pending).filter fun entry => entry.path = propDefault).length =
      (pending.filter fun record => record.name = propDefault).length := by
  induction pending generalizing position with
  | nil => rfl
  | cons record rest ih =>
      have path : (record.entryAt position).path = record.name := rfl
      rw [entriesFrom, List.filter_cons, List.filter_cons, path]
      split
      · rw [List.length_cons, List.length_cons, ih]
      · rw [ih]

/-- The entry of `prop.default` meets the conditions of the tool exactly when its record does. -/
theorem Around.patchable_iff {archive : Archive} {front back : List Record} {target : Record}
    (around : archive.Around front target back) :
    Newc.Patchable archive.encode (entriesFrom 0 archive.records)
        (target.entryAt (body front).length) ↔ archive.Patchable target := by
  have counted (wanted : Bytes) : (countExactLines
      ((target.entryAt (body front).length).data archive.encode) wanted).length =
        (contents target.data).count wanted := by
    rw [length_countExactLines, around.data_entry]
  refine ⟨fun patchable => ⟨around.only_target, patchable.regular, ?_, ?_⟩,
    fun patchable => ⟨around.only_entry, patchable.regular, ?_, ?_⟩⟩
  · intro patch member
    rw [← counted, patchable.old_once patch member]
  · intro patch member
    rw [← counted, patchable.new_absent patch member]
  · intro patch member
    rw [counted, patchable.old_once patch member]
  · intro patch member
    rw [counted, patchable.new_absent patch member]

/-- The archive the tool returns for a patchable one. -/
theorem Around.patchEntries_eq {archive : Archive} {front back : List Record} {target : Record}
    (around : archive.Around front target back) {output : Bytes} {report : PatchReport}
    (patched : patchEntries sha256Bytes archive.encode (entriesFrom 0 archive.records) =
      .ok (output, report)) : output = archive.patched.encode := by
  obtain ⟨entry, start, stop, secureAt, debuggableAt, middle, run⟩ := patchRun_of_patchEntries
    sha256Bytes archive.hexHeaders.forwardSizes archive.records_from_start patched
  cases around.only_entry.symm.trans run.only_target
  have startEq := run.data_start
  have stopEq := run.data_end
  rw [(Around.dataStart_entry front target).1] at startEq
  rw [(Around.dataStart_entry front target).2] at stopEq
  cases Int.ofNat_inj.mp startEq
  cases Int.ofNat_inj.mp stopEq
  have same := run.sameOutside
  have data := run.secure_done.lines
  have before := around.data_entry
  rw [Entry.data, run.data_start, run.data_end] at before
  rw [before] at data
  have edited := run.debuggable_done.lines
  rw [data] at edited
  have window := congrArg List.flatten edited
  rw [flatten_splitlines] at window
  rw [around.encode] at same
  rw [around.encode_patched]
  exact same.eq_around window

theorem Patchable.around {archive : Archive} {target : Record}
    (patchable : archive.Patchable target) : ∃ front back, archive.Around front target back :=
  around_of_filter patchable.only_target

end Archive

/-- On the encoding of an archive the tool returns the encoding of the patched
archive, or refuses when the archive is not patchable. -/
theorem patchProperties_encode (archive : Archive) (extra : Nat) :
    (∀ target, archive.Patchable target → ∃ report,
      patchProperties sha256Bytes (archive.records.length + 1 + extra) archive.encode =
        some (.ok (archive.patched.encode, report))) ∧
    ((¬ ∃ target, archive.Patchable target) → ∃ error,
      patchProperties sha256Bytes (archive.records.length + 1 + extra) archive.encode =
        some (.error error)) := by
  have parsed : parseNewc (archive.records.length + 1 + extra) archive.encode =
      some (.ok (Archive.entriesFrom 0 archive.records)) := by
    refine parseNewc_eq_ok_iff.mpr ⟨?_, _, archive.records_from_start, archive.zero_tail⟩
    rw [Archive.length_entriesFrom]
    omega
  have accepts := (patchEntries_outcome sha256Bytes archive.hexHeaders.forwardSizes
    archive.records_from_start).ok_iff
  rw [patchProperties_of_parsed sha256Bytes parsed]
  refine ⟨fun target patchable => ?_, fun refused => ?_⟩
  · obtain ⟨front, back, around⟩ := patchable.around
    obtain ⟨output, report, succeeded⟩ := accepts.mpr ⟨_, around.patchable_iff.mpr patchable⟩
    refine ⟨report, ?_⟩
    rw [succeeded, around.patchEntries_eq sha256Bytes succeeded]
  · cases result : patchEntries sha256Bytes archive.encode (Archive.entriesFrom 0 archive.records) with
    | error error => exact ⟨error, rfl⟩
    | ok value =>
        obtain ⟨entry, patchable⟩ := accepts.mp ⟨value.1, value.2, result⟩
        have one := congrArg List.length patchable.only_target
        rw [Archive.length_filter_entriesFrom] at one
        obtain ⟨target, only⟩ := List.length_eq_one_iff.mp one
        obtain ⟨front, back, around⟩ := Archive.around_of_filter only
        cases around.only_entry.symm.trans patchable.only_target
        exact absurd ⟨target, around.patchable_iff.mp patchable⟩ refused

end DashTwrp.Newc
