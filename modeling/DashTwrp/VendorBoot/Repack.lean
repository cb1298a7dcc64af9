import DashTwrp.VendorBoot.Reader

namespace DashTwrp.VendorBoot

open DashTwrp.Python

/-! The image construction of the repack tool, from `img = bytearray(PART_SZ)`
to the size assertion. -/

/-- `PART_SZ` -/
def partSize : Nat := 67108864

/-- The magic of a flattened device tree. -/
def fdtMagic : Bytes := [0xd0, 0x0d, 0xfe, 0xed]

inductive RepackError where
  /-- `tpl['frags'][1]` on a template with fewer than two fragments. -/
  | indexError
  | structError
  /-- "ERROR: DTB not found" and exit status 1. -/
  | dtbNotFound
  /-- `assert os.path.getsize(args.output) == PART_SZ`, after the image is written. -/
  | assertionError
deriving DecidableEq, Repr

/-- The scan for the magic over `remaining` positions from `o` on. -/
def findMagic (raw : Bytes) (o : Nat) : Nat → Option Nat
  | 0 => none
  | remaining + 1 =>
      if slice raw o (o + 4 : Nat) = fdtMagic then some o
      else findMagic raw (o + 1) remaining

/-- `d_start`: 64 bytes before the first magic at the section start or up to 255
bytes behind it.  A start in front of the section counts as no DTB. -/
def findDtb (tpl : Image) : Option Nat :=
  match findMagic tpl.raw tpl.dtbo (min (tpl.dtbo + 256) tpl.raw.length - tpl.dtbo) with
  | none => none
  | some o => if tpl.dtbo + 64 ≤ o then some (o - 64) else none

/-- `dtbo` of the new image. -/
def newDtbo (tpl : Image) (rsz : Nat) : Nat := align (align tpl.hs pageSize + rsz) pageSize

/-- `tblo` of the new image. -/
def newTblo (tpl : Image) (rsz : Nat) : Nat :=
  align (newDtbo tpl rsz + align tpl.ds pageSize) pageSize

/-- The construction up to the DTB search: the image so far and `d_start`. -/
def buildFront (tpl : Image) (f0 f1New : Bytes) : Except RepackError (Bytes × Nat) :=
  let rsz := f0.length + f1New.length
  let img := List.replicate partSize 0
  let img := assign img 0 pageSize (slice tpl.p0 0 pageSize)
  match packU32 img 24 rsz with
  | none => .error .structError
  | some img =>
      let ro := align tpl.hs pageSize
      let img := assign img ro (ro + f0.length : Nat) f0
      let img := assign img (ro + f0.length : Nat) (ro + rsz : Nat) f1New
      match findDtb tpl with
      | none => .error .dtbNotFound
      | some dStart => .ok (img, dStart)

/-- `raw`, the table entry built in a `bytearray(tpl['es'])`. -/
def tableEntry (es size off typ : Nat) : Option Bytes :=
  match packU32 (List.replicate es 0) 0 size with
  | none => none
  | some raw =>
      match packU32 raw 4 off with
      | none => none
      | some raw =>
          match packU32 raw 8 typ with
          | none => none
          | some raw => some (assign raw 12 44 (List.replicate 32 0))

/-- The loop that writes the table, `i` being the next index. -/
def writeTable (tblo es i : Nat) (img : Bytes) : List (Bytes × Nat) → Except RepackError Bytes
  | [] => .ok img
  | (data, off) :: rest =>
      let eo := tblo + i * es
      match tableEntry es data.length off (i + 1) with
      | none => .error .structError
      | some raw => writeTable tblo es (i + 1) (assign img eo (eo + es : Nat) raw) rest

/-- The bytes written to the output file. -/
def buildImage (tpl : Image) (f0 f1New : Bytes) : Except RepackError Bytes :=
  match buildFront tpl f0 f1New with
  | .error error => .error error
  | .ok (img, dStart) =>
      let rsz := f0.length + f1New.length
      let dtbo := newDtbo tpl rsz
      let img := assign img dtbo (dtbo + tpl.ds : Nat)
        (slice tpl.raw dStart (dStart + tpl.ds : Nat))
      writeTable (newTblo tpl rsz) tpl.es 0 img [(f0, 0), (f1New, f0.length)]

/-- `main` on a template read by `rd` and a packed F1: the image it has written
when the size assertion passes. -/
def repack (tpl : Image) (f1New : Bytes) : Except RepackError Bytes :=
  match tpl.frags with
  | f0 :: _ :: _ =>
      match buildImage tpl f0.payload f1New with
      | .error error => .error error
      | .ok img => if img.length = partSize then .ok img else .error .assertionError
  | _ => .error .indexError

end DashTwrp.VendorBoot
