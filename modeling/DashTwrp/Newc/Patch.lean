import DashTwrp.Newc.Parse
import DashTwrp.Python.Lines

namespace DashTwrp.Newc

open DashTwrp.Python

/-! `count_exact_lines` and `patch_properties` of the adbd property patch tool. -/

structure PropertyPatch where
  oldLine : Bytes
  newLine : Bytes
  propertyName : String
deriving DecidableEq, Repr

def securePatch : PropertyPatch where
  oldLine := encodeUtf8 "ro.secure=1"
  newLine := encodeUtf8 "ro.secure=0"
  propertyName := "ro.secure"

def debuggablePatch : PropertyPatch where
  oldLine := encodeUtf8 "ro.debuggable=0"
  newLine := encodeUtf8 "ro.debuggable=1"
  propertyName := "ro.debuggable"

def propertyPatches : List PropertyPatch := [securePatch, debuggablePatch]

def propDefault : String := "prop.default"

/-- What `patch_properties` raises; all but the parser's errors are `RuntimeError`. -/
inductive PatchError where
  | newc (error : NewcError)
  | targetCount (found : Nat)
  | notRegularFile
  | lineCount (oldLine : Bytes) (found : Nat)
  | changeCount (found : Nat)
  | oldLineSurvived (oldLine : Bytes)
  | newLineNotUnique (newLine : Bytes)
deriving DecidableEq, Repr

def PatchError.message : PatchError → Option String
  | .newc error => error.message
  | .targetCount found => some s!"expected exactly one prop.default entry, found {found}"
  | .notRegularFile => some "prop.default is not a regular file"
  | .lineCount oldLine found =>
      (decodeUtf8 oldLine).map fun line => s!"expected exactly one {line} line, found {found}"
  | .changeCount found =>
      some s!"unexpected archive change count: {found} (expected {propertyPatches.length})"
  | .oldLineSurvived oldLine =>
      (decodeUtf8 oldLine).map fun line => s!"old property line survived: {line}"
  | .newLineNotUnique newLine =>
      (decodeUtf8 newLine).map fun line => s!"new property line is not unique: {line}"

structure PatchReport where
  entry : String
  entrySize : Nat
  entrySha256Before : String
  entrySha256After : String
  changedProperties : List String
  changedByteCount : Nat
  changedOffsets : List Nat
  preservation : String
deriving DecidableEq, Repr

/-- The offsets, counted from `cursor`, of the lines whose content is `wanted`. -/
def matchingLines (wanted : Bytes) (cursor : Nat) : List Bytes → List Nat
  | [] => []
  | line :: rest =>
      let hits := matchingLines wanted (cursor + line.length) rest
      if rstripBreaks line = wanted then cursor :: hits else hits

def countExactLines (data wanted : Bytes) : List Nat :=
  matchingLines wanted 0 (splitlines data)

/-- The first loop of `patch_properties`.  Lines are counted in the data as it
was before the first patch. -/
def applyPatches (before : Bytes) (dataStart : Int) :
    List PropertyPatch → Bytes → List String → Except PatchError (Bytes × List String)
  | [], output, changed => .ok (output, changed)
  | patch :: rest, output, changed =>
      match countExactLines before patch.oldLine with
      | [hit] =>
          let lineStart := dataStart + hit
          applyPatches before dataStart rest
            (assign output lineStart (lineStart + patch.oldLine.length) patch.newLine)
            (changed ++ [patch.propertyName])
      | hits => .error (.lineCount patch.oldLine hits.length)

/-- `[index for index, (old, new) in enumerate(zip(cpio, output)) if old != new]` -/
def changedOffsets (cpio output : Bytes) : List Nat :=
  ((cpio.zip output).zipIdx.filter fun pair => pair.1.1 != pair.1.2).map (·.2)

/-- The second loop of `patch_properties`. -/
def checkPatched (after : Bytes) : List PropertyPatch → Except PatchError Unit
  | [] => .ok ()
  | patch :: rest =>
      if countExactLines after patch.oldLine ≠ [] then .error (.oldLineSurvived patch.oldLine)
      else if (countExactLines after patch.newLine).length ≠ 1 then
        .error (.newLineNotUnique patch.newLine)
      else checkPatched after rest

section

-- `hashlib.sha256(data).hexdigest()`
variable (sha256Bytes : Bytes → String)

/-- `patch_properties` after its first loop: the checks of the patched archive,
and the report. -/
def reportPatch (cpio output : Bytes) (entry : Entry) (changedProperties : List String) :
    Except PatchError (Bytes × PatchReport) :=
  let before := slice cpio entry.dataStart entry.dataEnd
  let offsets := changedOffsets cpio output
  if offsets.length ≠ propertyPatches.length then .error (.changeCount offsets.length)
  else
    let after := slice output entry.dataStart entry.dataEnd
    match checkPatched after propertyPatches with
    | .error error => .error error
    | .ok () =>
        .ok (output, {
          entry := propDefault
          entrySize := before.length
          entrySha256Before := sha256Bytes before
          entrySha256After := sha256Bytes after
          changedProperties
          changedByteCount := offsets.length
          changedOffsets := offsets
          preservation := "all decompressed CPIO bytes outside the two property value bytes are unchanged" })

/-- `patch_properties` from the parsed entries on. -/
def patchEntries (cpio : Bytes) (entries : List Entry) :
    Except PatchError (Bytes × PatchReport) :=
  match entries.filter (fun entry => entry.path = propDefault) with
  | [entry] =>
      if entry.type ≠ regularFile then .error .notRegularFile
      else
        match applyPatches (slice cpio entry.dataStart entry.dataEnd) entry.dataStart
            propertyPatches cpio [] with
        | .error error => .error error
        | .ok (output, changedProperties) =>
            reportPatch sha256Bytes cpio output entry changedProperties
  | targets => .error (.targetCount targets.length)

def patchProperties (budget : Nat) (cpio : Bytes) :
    Option (Except PatchError (Bytes × PatchReport)) :=
  match parseNewc budget cpio with
  | none => none
  | some (.error error) => some (.error (.newc error))
  | some (.ok entries) => some (patchEntries sha256Bytes cpio entries)

theorem reportPatch_eq_ok {cpio output result : Bytes} {entry : Entry} {changed : List String}
    {report : PatchReport}
    (reported : reportPatch sha256Bytes cpio output entry changed = .ok (result, report)) :
    result = output ∧ report.changedOffsets = changedOffsets cpio output ∧
      checkPatched (entry.data output) propertyPatches = .ok () := by
  unfold reportPatch at reported
  simp only at reported
  split at reported
  · contradiction
  · split at reported
    · contradiction
    · rename_i checked
      cases reported
      exact ⟨rfl, rfl, checked⟩

theorem applyPatches_cons_eq_ok {before output result : Bytes} {dataStart : Int}
    {patch : PropertyPatch} {rest : List PropertyPatch} {changed names : List String}
    (applied : applyPatches before dataStart (patch :: rest) output changed = .ok (result, names)) :
    ∃ hit, countExactLines before patch.oldLine = [hit] ∧
      applyPatches before dataStart rest
        (assign output (dataStart + hit) (dataStart + hit + patch.oldLine.length) patch.newLine)
        (changed ++ [patch.propertyName]) = .ok (result, names) := by
  rw [applyPatches] at applied
  split at applied
  · rename_i hit found
    exact ⟨hit, found, applied⟩
  · contradiction

/-- Everything a successful patch went through. -/
theorem patchEntries_eq_ok {cpio output : Bytes} {entries : List Entry} {report : PatchReport}
    (patched : patchEntries sha256Bytes cpio entries = .ok (output, report)) :
    ∃ target secureAt debuggableAt,
      entries.filter (fun entry => entry.path = propDefault) = [target] ∧
      target.type = regularFile ∧
      countExactLines (target.data cpio) securePatch.oldLine = [secureAt] ∧
      countExactLines (target.data cpio) debuggablePatch.oldLine = [debuggableAt] ∧
      output = assign
        (assign cpio (target.dataStart + secureAt)
          (target.dataStart + secureAt + securePatch.oldLine.length) securePatch.newLine)
        (target.dataStart + debuggableAt)
        (target.dataStart + debuggableAt + debuggablePatch.oldLine.length)
        debuggablePatch.newLine ∧
      report.changedOffsets = changedOffsets cpio output ∧
      checkPatched (target.data output) propertyPatches = .ok () := by
  unfold patchEntries at patched
  split at patched
  · rename_i target only
    split at patched
    · contradiction
    · rename_i regular
      split at patched
      · contradiction
      · rename_i result changed applied
        obtain ⟨rfl, offsets, checked⟩ := reportPatch_eq_ok sha256Bytes patched
        obtain ⟨secureAt, secureHit, applied⟩ := applyPatches_cons_eq_ok applied
        obtain ⟨debuggableAt, debuggableHit, applied⟩ := applyPatches_cons_eq_ok applied
        cases applied
        exact ⟨target, secureAt, debuggableAt, only, by simpa using regular, secureHit,
          debuggableHit, rfl, offsets, checked⟩
  · contradiction

end

end DashTwrp.Newc
