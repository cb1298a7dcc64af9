import DashTwrp.RepackF1.Run

namespace DashTwrp.ExtractFiles

open DashTwrp.Python DashTwrp.Unix
open DashTwrp.RepackF1 (readFile)

/-! `extract-files.sh`: three files of the stock image that are copied into the device
tree, each only when it has the digest that is written in the script.

`sha256sum` is a parameter: the first word that it prints of a file with some bytes. -/

/-- One call of `copy_verified`. -/
structure Copy where
  source : List Name
  sha256 : List Char
  folder : Name
  file : Name
deriving DecidableEq

/-- The destination, in the device tree. -/
def Copy.destination (copy : Copy) : List Name := [copy.folder, copy.file]

def copies : List Copy :=
  [{ source := ["stock", "vendor_boot", "aosp_unpack", "dtb"]
     sha256 := "2636d5a861e909f5bf32fb3b5c80b25824fbb6591e31a21b6b1326b6dc52d7e3".toList
     folder := "prebuilt", file := "dash-stock.dtb" },
   { source := ["stock", "trees", "recovery", "system", "etc", "recovery.fstab"]
     sha256 := "dcd57d2fbab10b683ddecea92ae3a54a69ac161af7ef1b90d07190335931b565".toList
     folder := "evidence", file := "stock-recovery.fstab" },
   { source := ["stock", "trees", "recovery", "init.recovery.mt6991.rc"]
     sha256 := "ba8eddd72cbaad183012da73c1ebd1d2abbacb0ff1ed4eaad5dd0b4ec395371e".toList
     folder := "rootdir", file := "init.recovery.mt6991.rc" }]

inductive ScriptError where
  | sha256sum (error : OsError)
  | hashMismatch
  | install (error : OsError)

/-- `realpath "$DEVICE_ROOT/../../.."` -/
def workspaceRoot (deviceRoot : Location) : Location := deviceRoot.drop 3

section

variable (fs : FileSystem Bytes)

/-- What `install` does with the entry that is there: it makes way, unless it is the
source itself or a directory. -/
def unlinkTarget (sourceStart : Location) (source : PurePath) (targetStart : Location)
    (target : PurePath) : Except OsError (FileSystem Bytes) :=
  if fs.lexists targetStart target then
    if fs.locate true sourceStart source = fs.locate false targetStart target then
      .error (.other 0)
    else osRemove fs targetStart target
  else .ok fs

/-- The copy of `install`, once the directories of the target are there. -/
def installFile (sourceStart : Location) (source : PurePath) (targetStart : Location)
    (target : PurePath) : Except OsError (FileSystem Bytes) := do
  let data ← readFile fs sourceStart source
  let cleared ← unlinkTarget fs sourceStart source targetStart target
  writeFile cleared targetStart target data

/-- `install -D -m 0644 "$source_path" "$destination_path"`, which copies into a
destination that is a directory. -/
def install (sourceStart : Location) (source : PurePath) (targetStart : Location)
    (target : PurePath) : Except OsError (FileSystem Bytes) :=
  if fs.isDir targetStart target then
    installFile fs sourceStart source targetStart
      { target with steps := target.steps ++ source.steps.getLast?.toList }
  else do
    let made ← makedirs true fs targetStart { target with steps := target.steps.dropLast }
    installFile made sourceStart source targetStart target

variable (sha256sum : Location → Bytes → List Char) (deviceRoot : Location)

/-- `copy_verified`, with `pipefail`. -/
def copyVerified (copy : Copy) : Except ScriptError (FileSystem Bytes) := do
  let data ← (readFile fs (workspaceRoot deviceRoot) (.ofNames copy.source)).mapError .sha256sum
  if sha256sum (place (workspaceRoot deviceRoot) copy.source) data ≠ copy.sha256 then
    .error .hashMismatch
  else
    (install fs (workspaceRoot deviceRoot) (.ofNames copy.source) deviceRoot
      (.ofNames copy.destination)).mapError .install

end

/-- The script, which `set -e` ends at the first call that fails: its exit status and
what it leaves. -/
def main (sha256sum : Location → Bytes → List Char) (deviceRoot : Location)
    (fs : FileSystem Bytes) : Nat × FileSystem Bytes :=
  runCommands (fun fs copy => copyVerified fs sha256sum deviceRoot copy) copies fs

end DashTwrp.ExtractFiles
