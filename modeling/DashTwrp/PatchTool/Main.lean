import DashTwrp.Newc.Patch
import DashTwrp.Python.Json
import DashTwrp.Python.Paths
import DashTwrp.Python.Process

namespace DashTwrp.PatchTool

open DashTwrp.Newc DashTwrp.Python DashTwrp.Unix

/-! `main` of the adbd property patch tool. -/

def lz4LegacyMagic : Bytes := [0x02, 0x21, 0x4c, 0x18]

structure Args where
  inputFragment : PurePath
  outputFragment : PurePath
  report : PurePath
  lz4 : PurePath := ⟨false, [.name "lz4"]⟩
deriving DecidableEq, Repr

/-- `stillParsing` stands for a run of the archive parser that has not ended
within the budget of the model. -/
inductive ToolError where
  | patch (error : PatchError)
  | stillParsing
deriving DecidableEq, Repr

abbrev Tool := Program ToolError

def decodeCommand (path lz4 : PurePath) : List String := [pathText lz4, "-dc", "--", pathText path]

def compressCommand (lz4 : PurePath) : List String :=
  [pathText lz4, "-l", "-12", "--favor-decSpeed"]

def testCommand (output lz4 : PurePath) : List String := [pathText lz4, "-t", pathText output]

section

variable (env : Environment)

def decodeFragment (path lz4 : PurePath) : Tool Bytes := do
  let completed ← run env (decodeCommand path lz4) none
  checkReturncode (decodeCommand path lz4) completed
  pure completed.stdout

def compressFragment (cpio : Bytes) (output lz4 : PurePath) : Tool Unit := do
  mkdirParents env (parent output)
  let stream ← openExclusive env output
  -- The child writes straight into the file, also when it fails afterwards.
  let compressed ← run env (compressCommand lz4) (some cpio)
  writeTo env stream compressed.stdout
  checkReturncode (compressCommand lz4) compressed
  let written ← readBytes env output
  raiseIf (written.take 4 ≠ lz4LegacyMagic) "patched fragment is not legacy LZ4"
  let tested ← run env (testCommand output lz4) none
  let _ ← decoded tested.stdout
  let stderr ← decoded tested.stderr
  raiseIf (tested.returncode ≠ 0)
    ("legacy LZ4 validation failed: " ++ String.ofList (strip stderr))

/-- `path.resolve()` -/
def resolvePath (path : PurePath) : Tool Location := do
  match ← ask fun disk => resolve disk.tree env.links env.cwd path with
  | none => throw (.runtime ("Symlink loop from '" ++ pathText path ++ "'"))
  | some location => pure location

def refuseExisting (path : PurePath) : Tool Unit := do
  let taken ← lexists env path
  raiseIf taken ("refusing to overwrite: " ++ pathText path)

/-- The checks `main` makes before it runs anything. -/
def refuseUpfront (args : Args) : Tool Unit := do
  let inputPresent ← isFile env args.inputFragment
  raiseIf (inputPresent = false) ("input fragment missing: " ++ pathText args.inputFragment)
  let lz4Present ← isFile env args.lz4
  raiseIf (lz4Present = false ∧ hasSeparator args.lz4) ("lz4 executable missing: " ++ pathText args.lz4)
  let output ← resolvePath env args.outputFragment
  let input ← resolvePath env args.inputFragment
  raiseIf (output = input) "input and output fragments must be different"
  refuseExisting env args.outputFragment
  refuseExisting env args.report

section

variable (sha256Bytes : Bytes → String) (budget : Nat)

def patch (cpio : Bytes) : Tool (Bytes × PatchReport) :=
  match patchProperties sha256Bytes budget cpio with
  | none => throw (.tool .stillParsing)
  | some (.error error) => throw (.tool (.patch error))
  | some (.ok result) => pure result

/-- What the report says of a file. -/
structure FileFacts where
  path : String
  size : Nat
  sha256 : String
deriving DecidableEq, Repr

def FileFacts.fields (facts : FileFacts) : List (String × Json) :=
  [("path", .string facts.path), ("size", .number facts.size), ("sha256", .string facts.sha256)]

def describeFile (path : PurePath) : Tool FileFacts := do
  let location ← resolvePath env path
  let sized ← readBytes env path
  let hashed ← readBytes env path
  pure { path := locationText location, size := sized.length, sha256 := sha256Bytes hashed }

def cpioFields (cpio : Bytes) : Json :=
  .object [("size", .number cpio.length), ("sha256", .string (sha256Bytes cpio))]

def patchFields (report : PatchReport) : Json :=
  .object [("entry", .string report.entry), ("entry_size", .number report.entrySize),
    ("entry_sha256_before", .string report.entrySha256Before),
    ("entry_sha256_after", .string report.entrySha256After),
    ("changed_properties", .array (report.changedProperties.map .string)),
    ("changed_byte_count", .number report.changedByteCount),
    ("changed_offsets", .array (report.changedOffsets.map fun offset => .number offset)),
    ("preservation", .string report.preservation)]

def patchValid : String := "ADBD_RECOVERY_PROPS_PATCH_VALID"

/-- `report` -/
def reportJson (input output : FileFacts) (inputCpio outputCpio : Bytes)
    (patchReport : PatchReport) : Json :=
  .object [("schema_version", .number 1), ("status", .string patchValid),
    ("input_fragment", .object input.fields),
    ("output_fragment",
      .object (output.fields ++ [("format", .string "legacy-lz4-level-12-favor-decSpeed")])),
    ("input_cpio", cpioFields sha256Bytes inputCpio),
    ("output_cpio", cpioFields sha256Bytes outputCpio),
    ("patch", patchFields patchReport),
    ("write_approval", .string "NOT_GRANTED"), ("device_write_allowed", .string "NO"),
    ("warning", .string "Host-only staging candidate. No device write is approved.")]

def writeReport (path : PurePath) (report : Json) : Tool Unit := do
  mkdirParents env (parent path)
  let stream ← openExclusive env path
  writeTo env stream (encodeUtf8 (String.ofList (report.dump true ++ ['\n'])))

/-- The lines `main` prints last. -/
def printSummary (output : FileFacts) (patchReport : PatchReport) : Tool Unit := do
  print env patchValid
  print env ("changed_byte_count=" ++ toString patchReport.changedByteCount)
  print env ("output_fragment_size=" ++ toString output.size)
  print env ("output_fragment_sha256=" ++ output.sha256)

/-- What `main` does once the output fragment is written and tested. -/
def finish (args : Args) (inputCpio : Bytes) (patched : Bytes × PatchReport) : Tool Nat := do
  let recompressed ← decodeFragment env args.outputFragment args.lz4
  raiseIf (recompressed ≠ patched.1) "recompressed fragment does not decode to the patched CPIO"
  let input ← describeFile env sha256Bytes args.inputFragment
  let output ← describeFile env sha256Bytes args.outputFragment
  writeReport env args.report (reportJson sha256Bytes input output inputCpio patched.1 patched.2)
  printSummary env output patched.2
  pure 0

def main (args : Args) : Tool Nat := do
  refuseUpfront env args
  let inputCpio ← decodeFragment env args.inputFragment args.lz4
  let patched ← patch sha256Bytes budget inputCpio
  compressFragment env patched.1 args.outputFragment args.lz4
  finish env sha256Bytes args inputCpio patched

/-- The text after `ERROR:`; `none` where Python or the operating system words it. -/
def errorMessage : Exception ToolError → Option String
  | .runtime message => some message
  | .tool (.patch error) => error.message
  | _ => none

/-- The exceptions the script does not turn into exit status 2. -/
def uncaught : Exception ToolError → Bool
  | .tool (.patch (.newc .indexError)) => true
  | .tool (.patch (.newc (.overflowError _))) => true
  | _ => false

/-- The exit status of the script; `none` while it is still parsing. -/
def exitStatus (args : Args) (before : World) : Option Nat :=
  match main env sha256Bytes budget args before with
  | .ok status _ => some status
  | .error (.tool .stillParsing) _ => none
  | .error error _ => some (if uncaught error then 1 else 2)

end

end

end DashTwrp.PatchTool
