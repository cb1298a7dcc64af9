import Mathlib.Data.List.Infix
import DashTwrp.Python.Shlex
import DashTwrp.VerifyTree.Verdict

namespace DashTwrp.VerifyTree

open DashTwrp.Python

/-! The checks of `recovery.fstab`. -/

abbrev Row := List (List Char)

inductive FstabError where
  | valueError (error : LexError)
  | indexError
deriving DecidableEq, Repr

/-- `row[index]` -/
def column (row : Row) (index : Nat) : Except FstabError (List Char) :=
  match row[index]? with
  | some text => .ok text
  | none => .error .indexError

/-- `line.strip() and not line.lstrip().startswith("#")` -/
def isRow (line : List Char) : Bool := strip line ≠ [] && !(['#'].isPrefixOf (lstrip line))

/-- The rows of some lines. -/
def rowsOf : List (List Char) → Except FstabError (List Row)
  | [] => .ok []
  | line :: rest =>
      if isRow line then do
        let row ← (shlexSplit line).mapError .valueError
        let rows ← rowsOf rest
        pure (row :: rows)
      else rowsOf rest

/-- `rows` -/
def fstabRows (fstab : List Char) : Except FstabError (List Row) := rowsOf (textLines fstab)

/-- `text.split(",")` -/
def commaList (text : List Char) : List (List Char) := text.splitOn ','

/-- The elements of two lists are the same set. -/
def sameElements (first second : List (List Char)) : Bool :=
  first.all (second.contains ·) && second.all (first.contains ·)

/-- The rows whose first column passes a test. -/
def rowsWhere (test : List Char → Bool) : List Row → Except FstabError (List Row)
  | [] => .ok []
  | row :: rest => do
      let first ← column row 0
      let matching ← rowsWhere test rest
      pure (if test first then row :: matching else matching)

/-- `sorted(logical)` -/
def logicalNames : List String :=
  ["mi_ext", "odm", "odm_dlkm", "product", "system", "system_dlkm", "system_ext", "vendor",
    "vendor_dlkm"]

/-- `row[3] == "ro" and row[4] == "wait,slotselect,logical"` -/
def logicalRowOk (row : Row) : Except FstabError Bool := do
  let options ← column row 3
  if options = "ro".toList then
    let flags ← column row 4
    pure (flags = "wait,slotselect,logical".toList)
  else pure false

def logicalCheck (rows : List Row) (name : String) : Except FstabError Bool := do
  let matching ← rowsWhere (· == name.toList) rows
  let filesystems := (matching.filter (·.length = 5)).filterMap (·[2]?)
  let flagsOk ← matching.allM logicalRowOk
  pure (matching.length = 2 && sameElements filesystems ["erofs".toList, "ext4".toList] && flagsOk)

/-- The flags of a row with five columns. -/
def fiveColumnFlags (row : Row) : List (List Char) :=
  if row.length = 5 then commaList (row[4]?.getD []) else []

/-- One row is mounted there, from the device, with the file system and the flags. -/
def mountCheck (point device filesystem : String) (required : List String) (rows : List Row) :
    Except FstabError Bool :=
  match rows.filter (·[1]? = some point.toList) with
  | [row] => do
      let source ← column row 0
      if source = device.toList then
        let kind ← column row 2
        pure (kind = filesystem.toList &&
          required.all fun flag => (fiveColumnFlags row).contains flag.toList)
      else pure false
  | _ => pure false

def metadataCheck : List Row → Except FstabError Bool :=
  mountCheck "/metadata" "/dev/block/by-name/metadata" "f2fs" []

def userdataCheck : List Row → Except FstabError Bool :=
  mountCheck "/data" "/dev/block/by-name/userdata" "f2fs"
    ["fileencryption=aes-256-xts:aes-256-cts:v2+inlinecrypt_optimized",
      "keydirectory=/metadata/vold/metadata_encryption", "storage", "settingsstorage",
      "userdataencryptbackup"]

def cacheCheck : List Row → Except FstabError Bool :=
  mountCheck "/cache" "/dev/block/by-name/rescue" "ext4"
    ["wait", "check", "formattable", "wipeduringfactoryreset=0", "display=Cache (Rescue)"]

def externalCheck (rows : List Row) : Except FstabError Bool := do
  match ← rowsWhere ("/devices/".toList.isPrefixOf ·) rows with
  | [row] =>
      let source ← column row 0
      if source = "/devices/platform/soc/16701000.usb0/16700000.xhci*".toList then
        let flags ← column row 4
        pure ((commaList flags).contains "storagename=USB-OTG".toList)
      else pure false
  | _ => pure false

/-- `allowed_by_name` -/
def allowedByName : List String :=
  ["metadata", "userdata", "rescue", "misc", "boot", "init_boot", "vendor_boot", "dtbo", "vbmeta",
    "vbmeta_system", "vbmeta_vendor"]

def byNameCheck (rows : List Row) : Except FstabError Bool := do
  let named ← rowsWhere ("/dev/block/by-name/".toList.isPrefixOf ·) rows
  pure (sameElements (named.map fun row => afterLast '/' (row[0]?.getD []))
    (allowedByName.map String.toList))

def slotselectCheck (rows : List Row) (name : String) : Except FstabError Bool :=
  match rows.filter fun row => row.length = 5 && row[1]? = some ("/" ++ name).toList with
  | [row] => do
      let source ← column row 0
      if source = ("/dev/block/by-name/" ++ name).toList then
        let flags ← column row 4
        pure (flags = "slotselect".toList)
      else pure false
  | _ => pure false

/-- The first columns of the rows of five columns that have the logical flag. -/
def logicalSet (rows : List Row) : List (List Char) :=
  (rows.filter fun row => (fiveColumnFlags row).contains "logical".toList).filterMap (·[0]?)

/-- `stock_rows` -/
def stockRows (stock : List Char) : List Row := ((textLines stock).filter isRow).map words

def logicalSetCheck (stock : List Char) (rows : List Row) : Except FstabError Bool :=
  pure (sameElements (logicalSet rows) (logicalSet (stockRows stock)))

/-- `forbidden_fstab` -/
def forbiddenTokens : List String := [" avb", "overlay ", "by-name/lk"]

/-- `token not in fstab` -/
def forbiddenCheck (fstab : List Char) (token : String) : Except FstabError Bool :=
  pure (¬ token.toList <:+: fstab)

/-- The names of the checks with what they test, in the order of the source. -/
def fstabTests (fstab stock : List Char) (rows : List Row) :
    List (String × Except FstabError Bool) :=
  logicalNames.map (fun name => ("fstab:logical:" ++ name, logicalCheck rows name)) ++
    [("fstab:metadata", metadataCheck rows), ("fstab:userdata", userdataCheck rows),
      ("fstab:cache-rescue", cacheCheck rows), ("fstab:single-usb-otg", externalCheck rows),
      ("fstab:by-name-allowlist", byNameCheck rows)] ++
    ["vbmeta", "vbmeta_system", "vbmeta_vendor"].map
      (fun name => ("fstab:slotselect:" ++ name, slotselectCheck rows name)) ++
    [("fstab:logical-set-matches-stock", logicalSetCheck stock rows)] ++
    forbiddenTokens.map fun token => ("fstab:forbidden:" ++ token, forbiddenCheck fstab token)

/-- Runs the tests up to the first exception. -/
def runTests : List (String × Except FstabError Bool) → Except FstabError (List Check)
  | [] => .ok []
  | (name, test) :: rest => do
      let passed ← test
      let checks ← runTests rest
      pure ({ name, passed } :: checks)

def fstabChecks (fstab stock : List Char) : Except FstabError (List Check) := do
  let rows ← fstabRows fstab
  runTests (fstabTests fstab stock rows)

/-- No exception is raised and every check passes. -/
def fstabAccepted (fstab stock : List Char) : Bool :=
  match fstabChecks fstab stock with
  | .ok checks => allPassed checks
  | .error _ => false

end DashTwrp.VerifyTree
