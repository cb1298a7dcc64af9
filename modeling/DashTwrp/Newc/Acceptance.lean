import DashTwrp.Newc.Preservation
import Mathlib.Data.List.Count

namespace DashTwrp.Newc

open DashTwrp.Python

/-! Which archives `patch_properties` accepts.

Only the contents of the lines matter, and how often each occurs: a patch
exchanges one content for another. -/

variable {old new wanted : Bytes} {cpio output : Bytes} {entries : List Entry} {target : Entry}
  {start stop secureAt debuggableAt : Nat} {middle : Bytes}

def contents (data : Bytes) : List Bytes := (splitlines data).map rstripBreaks

theorem length_countExactLines (data wanted : Bytes) :
    (countExactLines data wanted).length = (contents data).count wanted := by
  have counted : ∀ (lines : List Bytes) (cursor : Nat),
      (matchingLines wanted cursor lines).length = (lines.map rstripBreaks).count wanted := by
    intro lines
    induction lines with
    | nil => exact fun _ => rfl
    | cons line rest ih =>
        intro cursor
        by_cases same : rstripBreaks line = wanted
        · rw [matchingLines_cons_of_eq line rest same, List.length_cons, ih, List.map_cons, same,
            List.count_cons_self]
        · rw [matchingLines_cons_of_ne line rest same, ih, List.map_cons,
            List.count_cons_of_ne same]
  exact counted _ 0

theorem countExactLines_eq_nil_iff {data : Bytes} :
    countExactLines data wanted = [] ↔ (contents data).count wanted = 0 := by
  rw [← length_countExactLines, List.length_eq_zero_iff]

theorem countExactLines_singleton_iff {data : Bytes} :
    (∃ hit, countExactLines data wanted = [hit]) ↔ (contents data).count wanted = 1 := by
  rw [← length_countExactLines, List.length_eq_one_iff]

/-- One content in place of another. -/
def exchange (old new content : Bytes) : Bytes := if content = old then new else content

theorem count_exchange_new (different : old ≠ new) (contents : List Bytes) :
    (contents.map (exchange old new)).count new = contents.count old + contents.count new := by
  induction contents with
  | nil => rfl
  | cons content rest ih =>
      simp only [List.map_cons, List.count_cons, ih, exchange, beq_iff_eq]
      by_cases same : content = old
      · have notNew : content ≠ new := fun equal => different (same.symm.trans equal)
        simp only [if_pos same, if_true, if_neg notNew]
        omega
      · simp only [if_neg same]
        omega

theorem count_exchange_old (different : old ≠ new) (contents : List Bytes) :
    (contents.map (exchange old new)).count old = 0 := by
  rw [List.count_eq_zero]
  intro member
  obtain ⟨content, _, equal⟩ := List.mem_map.mp member
  unfold exchange at equal
  split at equal
  · exact different equal.symm
  · contradiction

theorem count_exchange_other (notOld : wanted ≠ old) (notNew : wanted ≠ new)
    (contents : List Bytes) :
    (contents.map (exchange old new)).count wanted = contents.count wanted := by
  induction contents with
  | nil => rfl
  | cons content rest ih =>
      have here : exchange old new content = wanted ↔ content = wanted := by
        unfold exchange
        split
        · rename_i same
          exact ⟨fun equal => absurd equal.symm notNew,
            fun equal => absurd (equal.symm.trans same) notOld⟩
        · exact Iff.rfl
      simp only [List.map_cons, List.count_cons, ih, beq_iff_eq, here]

theorem map_rstripBreaks_replaceLine {lines : List Bytes} (wellCut : Lines lines)
    (plain : Plain new) :
    (lines.map (replaceLine old new)).map rstripBreaks =
      (lines.map rstripBreaks).map (exchange old new) := by
  rw [List.map_map, List.map_map]
  exact List.map_congr_left fun line member => rstripBreaks_replaceLine wellCut plain member

/-- The contents of the lines behind both patches. -/
theorem PatchRun.contents_output
    (run : PatchRun cpio output entries target start stop secureAt debuggableAt middle) :
    contents (target.data output) =
      ((contents (target.data cpio)).map (exchange securePatch.oldLine securePatch.newLine)).map
        (exchange debuggablePatch.oldLine debuggablePatch.newLine) := by
  have securePlain := newLine_plain securePatch (by simp [propertyPatches])
  have debuggablePlain := newLine_plain debuggablePatch (by simp [propertyPatches])
  have secureNonempty : securePatch.newLine ≠ [] := by decide
  have wellCut := lines_splitlines (slice cpio start stop)
  rw [contents, contents, Entry.data, Entry.data, run.data_start, run.data_end,
    run.debuggable_done.lines, run.secure_done.lines,
    map_rstripBreaks_replaceLine (lines_map_replaceLine wellCut securePlain secureNonempty)
      debuggablePlain,
    map_rstripBreaks_replaceLine wellCut securePlain]

/-- How often each of the four lines occurs behind both patches. -/
structure Exchanged (before after : List Bytes) : Prop where
  secure_old : after.count securePatch.oldLine = 0
  secure_new : after.count securePatch.newLine =
    before.count securePatch.oldLine + before.count securePatch.newLine
  debuggable_old : after.count debuggablePatch.oldLine = 0
  debuggable_new : after.count debuggablePatch.newLine =
    before.count debuggablePatch.oldLine + before.count debuggablePatch.newLine

theorem exchanged (before : List Bytes) :
    Exchanged before ((before.map (exchange securePatch.oldLine securePatch.newLine)).map
      (exchange debuggablePatch.oldLine debuggablePatch.newLine)) := by
  obtain ⟨⟨secure, oldOld, oldNew⟩, ⟨newOld, newNew⟩, debuggable⟩ :
      (securePatch.oldLine ≠ securePatch.newLine ∧
        securePatch.oldLine ≠ debuggablePatch.oldLine ∧
        securePatch.oldLine ≠ debuggablePatch.newLine) ∧
      (securePatch.newLine ≠ debuggablePatch.oldLine ∧
        securePatch.newLine ≠ debuggablePatch.newLine) ∧
      debuggablePatch.oldLine ≠ debuggablePatch.newLine := by decide
  refine ⟨?_, ?_, ?_, ?_⟩
  · rw [count_exchange_other oldOld oldNew, count_exchange_old secure]
  · rw [count_exchange_other newOld newNew, count_exchange_new secure]
  · rw [count_exchange_old debuggable]
  · rw [count_exchange_new debuggable, count_exchange_other oldOld.symm newOld.symm,
      count_exchange_other oldNew.symm newNew.symm]

theorem checkPatched_exchanged {before : List Bytes} {after : Bytes}
    (counts : Exchanged before (contents after))
    (secure : before.count securePatch.oldLine = 1)
    (debuggable : before.count debuggablePatch.oldLine = 1) :
    checkPatched after propertyPatches =
      if before.count securePatch.newLine ≠ 0 then .error (.newLineNotUnique securePatch.newLine)
      else if before.count debuggablePatch.newLine ≠ 0 then
        .error (.newLineNotUnique debuggablePatch.newLine)
      else .ok () := by
  have secureGone := countExactLines_eq_nil_iff.mpr counts.secure_old
  have debuggableGone := countExactLines_eq_nil_iff.mpr counts.debuggable_old
  have secureNew := counts.secure_new
  have debuggableNew := counts.debuggable_new
  rw [← length_countExactLines] at secureNew debuggableNew
  simp only [checkPatched, propertyPatches, secureGone, debuggableGone, secureNew, debuggableNew,
    secure, debuggable, ne_eq, not_true_eq_false, if_false, Nat.add_eq_left]

variable {final : Int} (sha256Bytes : Bytes → String)

/-- The checks behind both patches fail only on a new line that was there before. -/
theorem PatchRun.reportPatch
    (run : PatchRun cpio output entries target start stop secureAt debuggableAt middle)
    (changed : List String) :
    (∃ patch ∈ propertyPatches, (contents (target.data cpio)).count patch.newLine ≠ 0 ∧
      reportPatch sha256Bytes cpio output target changed = .error (.newLineNotUnique patch.newLine)) ∨
    (∀ patch ∈ propertyPatches, (contents (target.data cpio)).count patch.newLine = 0) ∧
      ∃ report, reportPatch sha256Bytes cpio output target changed = .ok (output, report) := by
  have read : target.data cpio = slice cpio start stop := by
    rw [Entry.data, run.data_start, run.data_end]
  have secure := countExactLines_singleton_iff.mp ⟨secureAt, run.secure_line⟩
  have debuggable := countExactLines_singleton_iff.mp ⟨debuggableAt, run.debuggable_line⟩
  rw [← read] at secure debuggable
  have counts := exchanged (contents (target.data cpio))
  rw [← run.contents_output] at counts
  have checked := checkPatched_exchanged counts secure debuggable
  have offsets : (changedOffsets cpio output).length = propertyPatches.length :=
    run.changedOffsets_perm.length_eq
  rw [Entry.data] at checked
  unfold Newc.reportPatch
  simp only [offsets, ne_eq, not_true_eq_false, if_false, checked]
  by_cases secureNew : (contents (target.data cpio)).count securePatch.newLine = 0
  · by_cases debuggableNew : (contents (target.data cpio)).count debuggablePatch.newLine = 0
    · refine .inr ⟨?_, ?_⟩
      · simpa only [propertyPatches, List.forall_mem_cons, List.not_mem_nil, IsEmpty.forall_iff,
          implies_true, and_true] using ⟨secureNew, debuggableNew⟩
      · simp only [secureNew, debuggableNew, not_true_eq_false, if_false]
        exact ⟨_, rfl⟩
    · refine .inl ⟨debuggablePatch, by simp [propertyPatches], debuggableNew, ?_⟩
      simp only [secureNew, debuggableNew, not_true_eq_false, not_false_eq_true, if_false, if_true]
  · refine .inl ⟨securePatch, by simp [propertyPatches], secureNew, ?_⟩
    simp only [secureNew, not_false_eq_true, if_true]

theorem applyPatches_of_count {before : Bytes} {dataStart : Int} {patch : PropertyPatch}
    {rest : List PropertyPatch} {changed : List String}
    (other : (contents before).count patch.oldLine ≠ 1) :
    applyPatches before dataStart (patch :: rest) output changed =
      .error (.lineCount patch.oldLine ((contents before).count patch.oldLine)) := by
  rw [applyPatches]
  split
  · rename_i hit found
    exact absurd (countExactLines_singleton_iff.mp ⟨hit, found⟩) other
  · rw [length_countExactLines]

/-- Every way `patch_properties` can end once the archive is parsed. -/
inductive Outcome (cpio : Bytes) (entries : List Entry) :
    Except PatchError (Bytes × PatchReport) → Prop where
  | targetCount : (entries.filter fun entry => entry.path = propDefault).length ≠ 1 →
      Outcome cpio entries
        (.error (.targetCount (entries.filter fun entry => entry.path = propDefault).length))
  | notRegularFile (target : Entry) :
      entries.filter (fun entry => entry.path = propDefault) = [target] →
      target.type ≠ regularFile → Outcome cpio entries (.error .notRegularFile)
  | lineCount (target : Entry) (patch : PropertyPatch) :
      entries.filter (fun entry => entry.path = propDefault) = [target] →
      target.type = regularFile → patch ∈ propertyPatches →
      (contents (target.data cpio)).count patch.oldLine ≠ 1 →
      Outcome cpio entries (.error
        (.lineCount patch.oldLine ((contents (target.data cpio)).count patch.oldLine)))
  | newLineNotUnique (target : Entry) (patch : PropertyPatch) :
      entries.filter (fun entry => entry.path = propDefault) = [target] →
      target.type = regularFile → patch ∈ propertyPatches →
      (contents (target.data cpio)).count patch.newLine ≠ 0 →
      Outcome cpio entries (.error (.newLineNotUnique patch.newLine))
  | patched (target : Entry) (output : Bytes) (report : PatchReport) :
      entries.filter (fun entry => entry.path = propDefault) = [target] →
      target.type = regularFile →
      (∀ patch ∈ propertyPatches, (contents (target.data cpio)).count patch.oldLine = 1 ∧
        (contents (target.data cpio)).count patch.newLine = 0) →
      Outcome cpio entries (.ok (output, report))

theorem patchEntries_outcome (forward : ForwardSizes cpio) (records : Records cpio 0 entries final) :
    Outcome cpio entries (patchEntries sha256Bytes cpio entries) := by
  unfold patchEntries
  split
  · rename_i target only
    by_cases regular : target.type = regularFile
    · rw [if_neg (not_not.mpr regular)]
      have read : slice cpio target.dataStart target.dataEnd = target.data cpio := rfl
      rw [read]
      by_cases secure : (contents (target.data cpio)).count securePatch.oldLine = 1
      · by_cases debuggable : (contents (target.data cpio)).count debuggablePatch.oldLine = 1
        · obtain ⟨secureAt, secureHit⟩ := countExactLines_singleton_iff.mpr secure
          obtain ⟨debuggableAt, debuggableHit⟩ := countExactLines_singleton_iff.mpr debuggable
          obtain ⟨start, stop, middle, run⟩ :=
            patchRun_of_lines forward records only secureHit debuggableHit
          simp only [applyPatches, propertyPatches, secureHit, debuggableHit, List.nil_append,
            List.singleton_append]
          cases run.reportPatch sha256Bytes
              [securePatch.propertyName, debuggablePatch.propertyName] with
          | inl obstacle =>
              obtain ⟨patch, member, present, result⟩ := obstacle
              rw [result]
              exact .newLineNotUnique target patch only regular member present
          | inr clear =>
              obtain ⟨absent, report, result⟩ := clear
              rw [result]
              refine .patched target _ report only regular fun patch member => ⟨?_, absent patch member⟩
              simp only [propertyPatches, List.mem_cons, List.not_mem_nil, or_false] at member
              cases member with
              | inl same => rw [same, secure]
              | inr same => rw [same, debuggable]
        · obtain ⟨secureAt, secureHit⟩ := countExactLines_singleton_iff.mpr secure
          rw [propertyPatches, applyPatches]
          simp only [secureHit]
          rw [applyPatches_of_count debuggable]
          exact .lineCount target debuggablePatch only regular (by simp [propertyPatches]) debuggable
      · rw [propertyPatches, applyPatches_of_count secure]
        exact .lineCount target securePatch only regular (List.mem_cons_self ..) secure
    · rw [if_pos regular]
      exact .notRegularFile target only regular
  · rename_i several
    refine .targetCount fun one => ?_
    obtain ⟨target, only⟩ := List.length_eq_one_iff.mp one
    exact several target only

/-- What `patch_properties` asks of a parsed archive. -/
structure Patchable (cpio : Bytes) (entries : List Entry) (target : Entry) : Prop where
  only_target : entries.filter (fun entry => entry.path = propDefault) = [target]
  regular : target.type = regularFile
  old_once : ∀ patch ∈ propertyPatches, (countExactLines (target.data cpio) patch.oldLine).length = 1
  new_absent : ∀ patch ∈ propertyPatches, (countExactLines (target.data cpio) patch.newLine).length = 0

theorem Outcome.ok_iff {result : Except PatchError (Bytes × PatchReport)}
    (outcome : Outcome cpio entries result) :
    (∃ output report, result = .ok (output, report)) ↔ ∃ target, Patchable cpio entries target := by
  cases outcome with
  | targetCount several =>
      refine ⟨fun ⟨_, _, failed⟩ => (nomatch failed), fun ⟨target, patchable⟩ => ?_⟩
      exact absurd (congrArg List.length patchable.only_target) several
  | notRegularFile target only irregular =>
      refine ⟨fun ⟨_, _, failed⟩ => (nomatch failed), fun ⟨other, patchable⟩ => ?_⟩
      cases only.symm.trans patchable.only_target
      exact absurd patchable.regular irregular
  | lineCount target patch only _ member other =>
      refine ⟨fun ⟨_, _, failed⟩ => (nomatch failed), fun ⟨found, patchable⟩ => ?_⟩
      cases only.symm.trans patchable.only_target
      rw [← length_countExactLines] at other
      exact absurd (patchable.old_once patch member) other
  | newLineNotUnique target patch only _ member present =>
      refine ⟨fun ⟨_, _, failed⟩ => (nomatch failed), fun ⟨found, patchable⟩ => ?_⟩
      cases only.symm.trans patchable.only_target
      rw [← length_countExactLines] at present
      exact absurd (patchable.new_absent patch member) present
  | patched target output report only regular counts =>
      simp only [← length_countExactLines] at counts
      exact ⟨fun _ => ⟨target, only, regular, fun patch member => (counts patch member).1,
        fun patch member => (counts patch member).2⟩, fun _ => ⟨output, report, rfl⟩⟩

/-- `parse_newc` and then `patch_properties` on what it returns. -/
theorem patchProperties_of_parsed {budget : Nat}
    (parsed : parseNewc budget cpio = some (.ok entries)) :
    patchProperties sha256Bytes budget cpio = some (patchEntries sha256Bytes cpio entries) := by
  rw [patchProperties, parsed]

/-- The patched archive has no line left to patch. -/
theorem patchEntries_output (forward : ForwardSizes cpio) (records : Records cpio 0 entries final)
    {report : PatchReport}
    (patched : patchEntries sha256Bytes cpio entries = .ok (output, report)) :
    patchEntries sha256Bytes output entries = .error (.lineCount securePatch.oldLine 0) := by
  obtain ⟨target, secureAt, debuggableAt, only, regular, secureHit, debuggableHit, edited, -, -⟩ :=
    patchEntries_eq_ok sha256Bytes patched
  obtain ⟨start, stop, middle, run⟩ :=
    patchRun_of_lines forward records only secureHit debuggableHit
  rw [← edited] at run
  have counts := exchanged (contents (target.data cpio))
  rw [← run.contents_output] at counts
  have gone : (contents (slice output target.dataStart target.dataEnd)).count securePatch.oldLine ≠ 1 :=
    fun one => by
      have none := counts.secure_old
      rw [Entry.data] at none
      omega
  have zero := counts.secure_old
  rw [Entry.data] at zero
  simp only [patchEntries, only, regular, ne_eq, not_true_eq_false, if_false]
  rw [propertyPatches, applyPatches_of_count gone, zero]

/-- `patch_properties` succeeds exactly on the archives that have both lines to
patch once and neither of the new ones; two of its errors are never raised, and
it refuses what it has made. -/
theorem patchProperties_accepts_iff (budget : Nat) (cpio : Bytes) (hex : HexHeaders cpio) :
    ((∃ output report, patchProperties sha256Bytes budget cpio = some (.ok (output, report))) ↔
      ∃ entries target, parseNewc budget cpio = some (.ok entries) ∧
        Patchable cpio entries target) ∧
    (∀ found, patchProperties sha256Bytes budget cpio ≠ some (.error (.changeCount found))) ∧
    (∀ line, patchProperties sha256Bytes budget cpio ≠ some (.error (.oldLineSurvived line))) ∧
    ∀ output report, patchProperties sha256Bytes budget cpio = some (.ok (output, report)) →
      ∀ later, budget ≤ later → patchProperties sha256Bytes later output =
        some (.error (.lineCount securePatch.oldLine 0)) := by
  have forward := hex.forwardSizes
  cases parsed : parseNewc budget cpio with
  | none => simp [patchProperties, parsed]
  | some result =>
      cases result with
      | error error => simp [patchProperties, parsed]
      | ok entries =>
          obtain ⟨enough, final, records, zeros⟩ := parseNewc_eq_ok_iff.mp parsed
          have outcome := patchEntries_outcome sha256Bytes forward records
          rw [patchProperties_of_parsed sha256Bytes parsed]
          refine ⟨?_, ?_, ?_, ?_⟩
          · simp only [Option.some.injEq, Except.ok.injEq, exists_and_left, exists_eq_left']
            exact outcome.ok_iff
          · intro found failed
            rw [Option.some.inj failed] at outcome
            cases outcome
          · intro line failed
            rw [Option.some.inj failed] at outcome
            cases outcome
          · intro output report succeeded later atLeast
            have patched := Option.some.inj succeeded
            obtain ⟨target, start, stop, secureAt, debuggableAt, middle, run⟩ :=
              patchRun_of_patchEntries sha256Bytes forward records patched
            have startEq := run.data_start
            have stopEq := run.data_end
            obtain ⟨outputRecords, outputZeros, -⟩ := parseNewc_of_sameOutside forward
              run.sameOutside records zeros run.member (by omega) (by omega)
            have reparsed : parseNewc later output = some (.ok entries) :=
              parseNewc_eq_ok_iff.mpr ⟨by omega, final, outputRecords, outputZeros⟩
            rw [patchProperties_of_parsed sha256Bytes reparsed,
              patchEntries_output sha256Bytes forward records patched]

theorem patchProperties_accepts_iff_propArchive :
    ∃ entries target, parseNewc 2 (propArchive 0x31 0x30).encode = some (.ok entries) ∧
      Patchable (propArchive 0x31 0x30).encode entries target := by
  have accepts := patchProperties_accepts_iff (fun _ => "") 2 _ (propArchive 0x31 0x30).hexHeaders
  have run : (patchProperties (fun _ => "") 2 (propArchive 0x31 0x30).encode).map
      (fun result => result.toOption.map (·.1)) = some (some (propArchive 0x30 0x31).encode) := by
    decide +kernel
  simp only [Option.map_eq_some_iff] at run
  obtain ⟨result, patched, ⟨output, report⟩, returned, -⟩ := run
  cases result with
  | error error => cases returned
  | ok value => exact accepts.1.mp ⟨value.1, value.2, patched⟩

end DashTwrp.Newc
