import DashTwrp.Python.Struct
import DashTwrp.Python.Text

namespace DashTwrp.VendorBoot

open DashTwrp.Python

/-! The two readers of vendor_boot images: `rd` of the repack tool and `parse`
of the fragment tool, as functions of the bytes of the file. -/

def pageSize : Nat := 4096

def align (value alignment : Nat) : Nat := (value + alignment - 1) / alignment * alignment

/-- What the readers raise: `struct.error` and `UnicodeDecodeError`. -/
inductive ReadError where
  | structError
  | unicodeDecodeError (name : Bytes)
deriving DecidableEq, Repr

structure Fragment where
  sz : Nat
  off : Nat
  typ : Nat
  name : String
  payload : Bytes
deriving DecidableEq, Repr

/-- The dictionary `rd` returns. -/
structure Image where
  raw : Bytes
  p0 : Bytes
  hs : Nat
  ds : Nat
  rs : Nat
  ro : Nat
  dtbo : Nat
  tblo : Nat
  ec : Nat
  es : Nat
  frags : List Fragment
deriving DecidableEq, Repr

/-- `rd`'s reading of the table entry at `eo`. -/
def readEntry (d : Bytes) (ro eo : Nat) : Except ReadError Fragment :=
  match unpackU32 d eo, unpackU32 d (eo + 4), unpackU32 d (eo + 8) with
  | some sz, some off, some typ =>
      let field := rstripNul (slice d (eo + 12 : Nat) (eo + 44 : Nat))
      match decodeUtf8 field with
      | none => .error (.unicodeDecodeError field)
      | some name =>
          .ok {
            sz, off, typ, name
            payload :=
              if sz > 0 ∧ ro + off + sz ≤ d.length then
                slice d (ro + off : Nat) (ro + off + sz : Nat)
              else [] }
  | _, _, _ => .error .structError

/-- The loop of `rd` over the table, `i` being the next index.  An entry behind
the end of the file ends the loop without an error. -/
def readFrags (d : Bytes) (ro tblo es i : Nat) : Nat → Except ReadError (List Fragment)
  | 0 => .ok []
  | remaining + 1 =>
      let eo := tblo + i * es
      if eo + 12 > d.length then .ok []
      else
        match readEntry d ro eo with
        | .error error => .error error
        | .ok frag =>
            match readFrags d ro tblo es (i + 1) remaining with
            | .error error => .error error
            | .ok frags => .ok (frag :: frags)

/-- `rd`, on the contents `d` of the file. -/
def rd (d : Bytes) : Except ReadError Image :=
  match unpackU32 d 2096, unpackU32 d 2100, unpackU32 d 2112, unpackU32 d 2116,
    unpackU32 d 2120, unpackU32 d 2124, unpackU32 d 24 with
  | some hs, some ds, some _, some ec, some es, some _, some rs =>
      let ro := align hs pageSize
      let dtbo := align (ro + rs) pageSize
      let tblo := align (dtbo + align ds pageSize) pageSize
      match readFrags d ro tblo es 0 ec with
      | .error error => .error error
      | .ok frags =>
          .ok { raw := d, p0 := slice d 0 pageSize, hs, ds, rs, ro, dtbo, tblo, ec, es, frags }
  | _, _, _, _, _, _, _ => .error .structError

/-- The loop of `parse` over the table. -/
def parseFrags (d : Bytes) (ro tblo es i : Nat) : Nat → Except ReadError (List Bytes)
  | 0 => .ok []
  | remaining + 1 =>
      let eo := tblo + i * es
      match unpackU32 d eo, unpackU32 d (eo + 4), unpackU32 d (eo + 8) with
      | some sz, some off, some _ =>
          match parseFrags d ro tblo es (i + 1) remaining with
          | .error error => .error error
          | .ok frags => .ok (slice d (ro + off : Nat) (ro + off + sz : Nat) :: frags)
      | _, _, _ => .error .structError

/-- `parse`, on the contents `d` of the file. -/
def parse (d : Bytes) : Except ReadError (List Bytes) :=
  match unpackU32 d 2096, unpackU32 d 2100, unpackU32 d 24, unpackU32 d 2116,
    unpackU32 d 2120 with
  | some hs, some ds, some rs, some ec, some es =>
      let ro := align hs pageSize
      let dtbo := align (ro + rs) pageSize
      let tblo := align (dtbo + align ds pageSize) pageSize
      parseFrags d ro tblo es 0 ec
  | _, _, _, _, _ => .error .structError

theorem le_align (value : Nat) : value ≤ align value pageSize := by
  unfold align pageSize
  omega

theorem align_lt (value : Nat) : align value pageSize < value + pageSize := by
  unfold align pageSize
  omega

theorem align_mod (value : Nat) : align value pageSize % pageSize = 0 := by
  unfold align
  exact Nat.mul_mod_left _ _

theorem page_le_align {value : Nat} (positive : 1 ≤ value) : pageSize ≤ align value pageSize := by
  unfold align pageSize
  omega

theorem align_of_mod {value : Nat} (onPage : value % pageSize = 0) :
    align value pageSize = value := by
  unfold align
  unfold pageSize at *
  omega

theorem align_page_add {value : Nat} (more : Nat) (onPage : value % pageSize = 0) :
    align (value + more) pageSize = value + align more pageSize := by
  unfold align
  unfold pageSize at *
  omega

theorem readEntry_of_fields {d : Bytes} {ro eo sz off typ : Nat} {name : String}
    (szRead : unpackU32 d eo = some sz) (offRead : unpackU32 d (eo + 4) = some off)
    (typRead : unpackU32 d (eo + 8) = some typ)
    (decoded : decodeUtf8 (rstripNul (slice d (eo + 12 : Nat) (eo + 44 : Nat))) = some name) :
    readEntry d ro eo = .ok {
      sz, off, typ, name
      payload :=
        if sz > 0 ∧ ro + off + sz ≤ d.length then slice d (ro + off : Nat) (ro + off + sz : Nat)
        else [] } := by
  simp only [readEntry, szRead, offRead, typRead, decoded]

/-- The guard of `rd` loses no fragment that lies inside the file. -/
theorem guarded_payload {d : Bytes} {start sz : Nat} (inside : start + sz ≤ d.length) :
    (if sz > 0 ∧ start + sz ≤ d.length then slice d start (start + sz : Nat) else []) =
      slice d start (start + sz : Nat) := by
  by_cases empty : sz = 0
  · subst sz
    rw [if_neg (by omega), slice_natCast]
    simp
  · rw [if_pos ⟨by omega, inside⟩]

/-- What the fields of a successfully read image are. -/
theorem rd_eq_ok {d : Bytes} {tpl : Image} (read : rd d = .ok tpl) :
    tpl.raw = d ∧ tpl.p0 = slice d 0 pageSize ∧
      unpackU32 d 2096 = some tpl.hs ∧ unpackU32 d 2100 = some tpl.ds ∧
      unpackU32 d 2116 = some tpl.ec ∧ unpackU32 d 2120 = some tpl.es ∧
      unpackU32 d 24 = some tpl.rs ∧ (∃ bootconfig, unpackU32 d 2124 = some bootconfig) ∧
      tpl.ro = align tpl.hs pageSize ∧ tpl.dtbo = align (tpl.ro + tpl.rs) pageSize ∧
      tpl.tblo = align (tpl.dtbo + align tpl.ds pageSize) pageSize ∧
      readFrags d tpl.ro tpl.tblo tpl.es 0 tpl.ec = .ok tpl.frags := by
  unfold rd at read
  split at read
  · rename_i hs ds _ ec es bootconfig rs hsRead dsRead _ ecRead esRead bootconfigRead rsRead
    simp only at read
    split at read
    · contradiction
    · rename_i frags fragsRead
      cases read
      exact ⟨rfl, rfl, hsRead, dsRead, ecRead, esRead, rsRead, ⟨bootconfig, bootconfigRead⟩,
        rfl, rfl, rfl, fragsRead⟩
  · contradiction

/-- Every fragment `rd` returns has an entry that begins inside the file. -/
theorem readFrags_inside {d : Bytes} {ro tblo es i remaining : Nat} {frags : List Fragment}
    (read : readFrags d ro tblo es i remaining = .ok frags) (index : Nat)
    (inside : index < frags.length) : tblo + (i + index) * es + 12 ≤ d.length := by
  induction remaining generalizing i frags index with
  | zero =>
      cases read
      simp at inside
  | succ remaining ih =>
      simp only [readFrags] at read
      split at read
      · cases read
        simp at inside
      · rename_i within
        split at read
        · contradiction
        · split at read
          · contradiction
          · rename_i rest restRead
            cases read
            cases index with
            | zero =>
                have first : tblo + (i + 0) * es = tblo + i * es := by simp
                omega
            | succ index =>
                have later := ih restRead index (by simpa using inside)
                rw [Nat.add_right_comm i 1 index] at later
                exact later

theorem length_readFrags_le {d : Bytes} {ro tblo es i remaining : Nat} {frags : List Fragment}
    (read : readFrags d ro tblo es i remaining = .ok frags) : frags.length ≤ remaining := by
  induction remaining generalizing i frags with
  | zero =>
      cases read
      rfl
  | succ remaining ih =>
      simp only [readFrags] at read
      split at read
      · cases read
        exact Nat.zero_le _
      · split at read
        · contradiction
        · split at read
          · contradiction
          · rename_i rest restRead
            cases read
            have later := ih restRead
            rw [List.length_cons]
            omega

end DashTwrp.VendorBoot
