import DashTwrp.PrepareFragments.F0
import DashTwrp.PrepareFragments.F1
import DashTwrp.Python.Extraction
import DashTwrp.Python.GuardedRemovals
import DashTwrp.Python.Json
import DashTwrp.Python.Paths
import DashTwrp.RepackF1.Run

namespace DashTwrp.PrepareFragments

open DashTwrp.Python DashTwrp.Unix DashTwrp.VendorBoot
open DashTwrp.RepackF1 (subtreeAt)

/-! The fragment tool, from its three images to the manifest.

The images are given by what is read from them, and the paths of the staging tree, the
device tree and the outputs by where they lead. -/

inductive RunError where
  | prepare (error : PrepareError)
  | read (error : ReadError)
  | indexError
deriving DecidableEq, Repr

def RunError.os (error : OsError) : RunError := .prepare (.osError error)

structure Tools where
  stock : Unpacker
  ci : Unpacker
  validated : Unpacker
  f0 : Packer
  f1 : Packer

structure Arguments where
  stock : Bytes
  ci : Bytes
  validated : Bytes
  staging : Option Location
  dtroot : Location
  /-- The directory of `--prefix`, and its last component. -/
  directory : Location
  base : Name

namespace Arguments

variable (args : Arguments)

/-- The files that `f0_path`, `f1_path` and `manifest_path` name in the directory. -/
def f0File : Name := args.base ++ ".f0.lz4"

def f1File : Name := args.base ++ ".f1.lz4"

def manifestFile : Name := args.base ++ ".manifest.json"

/-- `manifest`, where `os.path.abspath` of an output is where it lies. -/
def manifest : Json :=
  .object [("replacements", .array
    [.object [("name", .string ""), ("type", .number 1),
      ("path", .string (locationText (args.f0File :: args.directory)))],
    .object [("name", .string "recovery"), ("type", .number 2),
      ("path", .string (locationText (args.f1File :: args.directory)))]])]

def manifestBytes : Bytes := encodeUtf8 (String.ofList (args.manifest.dump false))

end Arguments

/-- `f0d` -/
def f0d (tmpdir : Location) : Location := "_f0" :: tmpdir

/-- `ci_f1d` -/
def ciF1d (tmpdir : Location) : Location := "_ci_f1" :: tmpdir

/-- `frags[index]` -/
def fragment (frags : List Bytes) (index : Nat) : Except RunError Bytes :=
  match frags[index]? with
  | some payload => .ok payload
  | none => .error .indexError

/-- `decompress_fragment`, which looks at no exit status. -/
def decompressFragment (unpacker : Unpacker) (fs : FileSystem Bytes) (fragData : Bytes)
    (tmpdir : Location) (dest : Name) : Except OsError (FileSystem Bytes) := do
  let fs ← removeTree fs tmpdir (.ofNames [dest])
  let fs ← makedirs false fs tmpdir (.ofNames [dest])
  let r ← unpacker.lz4 fragData
  let p ← unpacker.cpio r.2
  extractInto fs p.2 tmpdir dest

/-- The programs of `pack_cpio_lz4`, whose exit statuses are not looked at either. -/
def packTree (packer : Packer) (tree : FileSystem Bytes) : Except OsError Bytes := do
  let r ← packer.find tree
  let p ← packer.cpio tree r.2
  let result ← packer.lz4 p.2
  pure result.2

/-- `pack_cpio_lz4` -/
def packCpioLz4 (packer : Packer) (fs : FileSystem Bytes) (srcDir : Location) :
    Except OsError Bytes :=
  subtreeAt fs srcDir >>= packTree packer

section

variable (tools : Tools) (args : Arguments) (tmpdir : Location)

/-- `stk_frags`, `ci_frags` and `val_frags` -/
def parseImages : Except RunError (List Bytes × List Bytes × List Bytes) := do
  let stkFrags ← (parse args.stock).mapError .read
  let ciFrags ← (parse args.ci).mapError .read
  let valFrags ← (parse args.validated).mapError .read
  pure (stkFrags, ciFrags, valFrags)

/-- The F0 step, with the two trees it extracts. -/
def makeF0 (stkFrags ciFrags : List Bytes) (fs : FileSystem Bytes) :
    Except RunError (FileSystem Bytes) := do
  let stkF0 ← fragment stkFrags 0
  let fs ← (decompressFragment tools.stock fs stkF0 tmpdir "_f0").mapError .os
  let fs ← (removePath fs (f0d tmpdir) (.ofNames recoveryNames)).mapError .os
  let fs ← (removePath fs (f0d tmpdir) (.ofNames resNames)).mapError .os
  let ciF1 ← fragment ciFrags 1
  let fs ← (decompressFragment tools.ci fs ciF1 tmpdir "_ci_f1").mapError .os
  let fs ← (makedirs true fs (f0d tmpdir) (.ofNames twrp16Names)).mapError .os
  let fs ← (copyLibs fs (ciF1d tmpdir) (f0d tmpdir) twrp16Libs).mapError .os
  (editScript fs (f0d tmpdir)).mapError .prepare

/-- The F1 step, with the tree it extracts. -/
def makeF1 (valFrags : List Bytes) (fs : FileSystem Bytes) :
    Except RunError (FileSystem Bytes) := do
  let valF1 ← fragment valFrags 1
  let fs ← (decompressFragment tools.validated fs valF1 tmpdir "_val_f1").mapError .os
  (f1Transform fs tmpdir args.staging args.dtroot).mapError .os

/-- `main` up to the packing of F0. -/
def prepareF0 (fs : FileSystem Bytes) : Except RunError (List Bytes × FileSystem Bytes) := do
  let fs ← (mkdtemp fs tmpdir).mapError .os
  let (stkFrags, ciFrags, valFrags) ← parseImages args
  let fs ← makeF0 tools tmpdir stkFrags ciFrags fs
  pure (valFrags, fs)

/-- What is to be written. -/
structure Packed where
  f0Lz4 : Bytes
  f1Lz4 : Bytes
  fs : FileSystem Bytes

/-- `main` up to the packing of F1. -/
def prepare (fs : FileSystem Bytes) : Except RunError Packed := do
  let (valFrags, fs) ← prepareF0 tools args tmpdir fs
  let f0Lz4 ← (packCpioLz4 tools.f0 fs (f0d tmpdir)).mapError .os
  let fs ← makeF1 tools args tmpdir valFrags fs
  let f1Lz4 ← (packCpioLz4 tools.f1 fs (f1d tmpdir)).mapError .os
  pure { f0Lz4, f1Lz4, fs }

/-- The three output files. -/
def publish (packed : Packed) : Except OsError (FileSystem Bytes) := do
  let fs ← removeExisting osRemove packed.fs args.directory (.ofNames [args.f0File])
  let fs ← removeExisting osRemove fs args.directory (.ofNames [args.f1File])
  let fs ← writeFile fs args.directory (.ofNames [args.f0File]) packed.f0Lz4
  let fs ← writeFile fs args.directory (.ofNames [args.f1File]) packed.f1Lz4
  writeFile fs args.directory (.ofNames [args.manifestFile]) args.manifestBytes

/-- `main` -/
def main (fs : FileSystem Bytes) : Except RunError (FileSystem Bytes) := do
  let packed ← prepare tools args tmpdir fs
  let fs ← (publish args packed).mapError .os
  pure (rmtreeIgnore fs tmpdir)

end

end DashTwrp.PrepareFragments
