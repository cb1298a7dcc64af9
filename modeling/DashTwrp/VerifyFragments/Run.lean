import DashTwrp.Python.Extraction
import DashTwrp.RepackF1.Run
import DashTwrp.VerifyFragments.F0

namespace DashTwrp.VerifyFragments

open DashTwrp.Python DashTwrp.Unix DashTwrp.InitRc
open DashTwrp.RepackF1 (readFile)

/-! The checks of the two fragments, from their files to the exit status. -/

inductive RunError where
  | os (error : OsError)
  | tree (error : VerifyError)
deriving DecidableEq, Repr

/-- `checks` of `verify_f1` -/
def f1Checks : List PurePath :=
  [["system", "bin", "recovery"], ["init.recovery.mt6991.rc"], ["init.recovery.project.rc"],
    ["system", "lib64", "libc.so"], ["system", "lib64", "libtwrpmtp-ffs.so"]].map .ofNames

/-- What `verify_f1` returns for the tree that was extracted to `root`. -/
def verifyF1Tree (fs : FileSystem Bytes) (root : Location) : Except VerifyError Bool :=
  .ok (f1Checks.all fun path => fs.pathExists root path)

/-- `decompress_fragment`: whether both programs succeeded, and what they leave. -/
def decompressFragment (unpacker : Unpacker) (fs : FileSystem Bytes) (fragData : Bytes)
    (tmpdir : Location) (dest : Name) : Except OsError (Bool × FileSystem Bytes) := do
  let fs ← removeTree fs tmpdir (.ofNames [dest])
  let fs ← makedirs false fs tmpdir (.ofNames [dest])
  let r ← unpacker.lz4 fragData
  if r.1 ≠ 0 then pure (false, fs)
  else do
    let p ← unpacker.cpio r.2
    let fs ← extractInto fs p.2 tmpdir dest
    pure (p.1 == 0, fs)

section

variable (unpacker : Unpacker) (fs : FileSystem Bytes) (tmpdir start : Location)
    (fragPath : PurePath)

/-- The tree of a fragment is extracted to a new directory and checked there. -/
def verifyFragment (check : FileSystem Bytes → Location → Except VerifyError Bool) (dest : Name) :
    Except RunError (Bool × FileSystem Bytes) := do
  let data ← (readFile fs start fragPath).mapError .os
  let fs ← (mkdtemp fs tmpdir).mapError .os
  let (extracted, fs) ← (decompressFragment unpacker fs data tmpdir dest).mapError .os
  let allOk ←
    (if extracted then (check fs (dest :: tmpdir)).mapError .tree else .ok false : Except _ Bool)
  pure (allOk, rmtreeIgnore fs tmpdir)

/-- `verify_f0` -/
def verifyF0 : Except RunError (Bool × FileSystem Bytes) :=
  verifyFragment unpacker fs tmpdir start fragPath verifyF0Tree "f0"

/-- `verify_f1` -/
def verifyF1 : Except RunError (Bool × FileSystem Bytes) :=
  verifyFragment unpacker fs tmpdir start fragPath verifyF1Tree "f1"

end

end DashTwrp.VerifyFragments
