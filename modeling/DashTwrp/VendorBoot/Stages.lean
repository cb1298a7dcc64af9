import DashTwrp.VendorBoot.Repack

namespace DashTwrp.VendorBoot

open DashTwrp.Python

/-! The image of the repack tool after each of its writes, and the length of the
`bytearray` there.  A write past its end makes it longer and a DTB slice that is
cut short makes it shorter; the size assertion only sees the sum. -/

theorem partSize_pages : partSize = 16384 * pageSize := rfl

theorem pageSize_eq : pageSize = 4096 := rfl

theorem page_le_partSize : pageSize ≤ partSize := by decide

theorem partSize_mod : partSize % pageSize = 0 := rfl

section Scan

/-- The scan finds the first position with the magic. -/
theorem findMagic_eq_some {raw : Bytes} {start remaining o : Nat}
    (found : findMagic raw start remaining = some o) :
    start ≤ o ∧ o < start + remaining ∧ slice raw o (o + 4 : Nat) = fdtMagic ∧
      ∀ earlier, start ≤ earlier → earlier < o →
        slice raw earlier (earlier + 4 : Nat) ≠ fdtMagic := by
  induction remaining generalizing start with
  | zero => cases found
  | succ remaining ih =>
      rw [findMagic] at found
      split at found
      · rename_i magic
        cases found
        exact ⟨Nat.le_refl _, by omega, magic, fun earlier lower upper => by omega⟩
      · rename_i other
        obtain ⟨lower, upper, magic, first⟩ := ih found
        refine ⟨by omega, by omega, magic, fun earlier below above => ?_⟩
        by_cases here : earlier = start
        · rw [here]
          exact other
        · exact first earlier (by omega) above

theorem findMagic_of_first {raw : Bytes} {start remaining o : Nat} (lower : start ≤ o)
    (upper : o < start + remaining) (magic : slice raw o (o + 4 : Nat) = fdtMagic)
    (first : ∀ earlier, start ≤ earlier → earlier < o →
      slice raw earlier (earlier + 4 : Nat) ≠ fdtMagic) :
    findMagic raw start remaining = some o := by
  induction remaining generalizing start with
  | zero => omega
  | succ remaining ih =>
      rw [findMagic]
      by_cases here : o = start
      · subst o
        rw [if_pos magic]
      · rw [if_neg (first start (Nat.le_refl _) (by omega))]
        exact ih (by omega) (by omega) fun earlier below above => first earlier (by omega) above

variable {tpl : Image} {dStart : Nat}

/-- What the DTB search has found: the first magic of the section is 64 bytes
behind `d_start`, which lies in the section. -/
theorem findDtb_eq_some (found : findDtb tpl = some dStart) :
    tpl.dtbo ≤ dStart ∧ dStart + 64 < tpl.dtbo + 256 ∧ dStart + 64 < tpl.raw.length ∧
      slice tpl.raw (dStart + 64 : Nat) (dStart + 68 : Nat) = fdtMagic ∧
      ∀ earlier, tpl.dtbo ≤ earlier → earlier < dStart + 64 →
        slice tpl.raw earlier (earlier + 4 : Nat) ≠ fdtMagic := by
  unfold findDtb at found
  split at found
  · contradiction
  · rename_i o scanned
    obtain ⟨lower, upper, magic, first⟩ := findMagic_eq_some scanned
    split at found
    · rename_i behind
      cases found
      have back : o - 64 + 64 = o := by omega
      have back4 : o - 64 + 68 = o + 4 := by omega
      rw [back, back4]
      exact ⟨by omega, by omega, by omega, magic, first⟩
    · contradiction

theorem findDtb_of_first (lower : tpl.dtbo ≤ dStart) (upper : dStart + 64 < tpl.dtbo + 256)
    (inside : dStart + 64 < tpl.raw.length)
    (magic : slice tpl.raw (dStart + 64 : Nat) (dStart + 68 : Nat) = fdtMagic)
    (first : ∀ earlier, tpl.dtbo ≤ earlier → earlier < dStart + 64 →
      slice tpl.raw earlier (earlier + 4 : Nat) ≠ fdtMagic) :
    findDtb tpl = some dStart := by
  have scanned : findMagic tpl.raw tpl.dtbo (min (tpl.dtbo + 256) tpl.raw.length - tpl.dtbo) =
      some (dStart + 64) :=
    findMagic_of_first (by omega) (by omega) magic first
  simp only [findDtb, scanned]
  rw [if_pos (by omega), Nat.add_sub_cancel]

end Scan

section Stages

variable (tpl : Image) (f0 f1New : Bytes) (dStart : Nat)

def pageImage : Bytes := assign (List.replicate partSize 0) 0 pageSize (slice tpl.p0 0 pageSize)

def sizedImage : Bytes := assign (pageImage tpl) 24 28 (le32 (f0.length + f1New.length))

def f0Image : Bytes :=
  assign (sizedImage tpl f0 f1New) (align tpl.hs pageSize)
    (align tpl.hs pageSize + f0.length : Nat) f0

def fragmentImage : Bytes :=
  assign (f0Image tpl f0 f1New) (align tpl.hs pageSize + f0.length : Nat)
    (align tpl.hs pageSize + (f0.length + f1New.length) : Nat) f1New

/-- The bytes copied as the DTB. -/
def dtbCopy : Bytes := slice tpl.raw dStart (dStart + tpl.ds : Nat)

def dtbImage : Bytes :=
  assign (fragmentImage tpl f0 f1New) (newDtbo tpl (f0.length + f1New.length))
    (newDtbo tpl (f0.length + f1New.length) + tpl.ds : Nat) (dtbCopy tpl dStart)

/-- A table entry: size, offset and type, and zeros for the name and the board id. -/
def entryBytes (es size off typ : Nat) : Bytes :=
  le32 size ++ le32 off ++ le32 typ ++ List.replicate (max es 44 - 12) 0

def firstEntryImage : Bytes :=
  assign (dtbImage tpl f0 f1New dStart) (newTblo tpl (f0.length + f1New.length))
    (newTblo tpl (f0.length + f1New.length) + tpl.es : Nat) (entryBytes tpl.es f0.length 0 1)

def tableImage : Bytes :=
  assign (firstEntryImage tpl f0 f1New dStart)
    (newTblo tpl (f0.length + f1New.length) + tpl.es : Nat)
    (newTblo tpl (f0.length + f1New.length) + tpl.es + tpl.es : Nat)
    (entryBytes tpl.es f1New.length f0.length 2)

theorem packU32_middle (front cell back : Bytes) (value : Nat) (width : cell.length = 4)
    (bound : value < 2 ^ 32) :
    packU32 (front ++ cell ++ back) front.length value = some (front ++ le32 value ++ back) := by
  have inside : front.length + 4 ≤ (front ++ cell ++ back).length := by simp; omega
  rw [packU32, if_pos ⟨bound, inside⟩, assign_natCast]
  have upper : max front.length (front.length + 4) = (front ++ cell).length := by simp; omega
  rw [upper, List.drop_left, List.append_assoc front cell back, List.take_left]

theorem length_entryBytes (es size off typ : Nat) :
    (entryBytes es size off typ).length = max es 44 := by
  simp only [entryBytes, List.length_append, length_le32, List.length_replicate]
  omega

theorem tableEntry_eq_some_iff {es size off typ : Nat} {raw : Bytes} :
    tableEntry es size off typ = some raw ↔
      12 ≤ es ∧ size < 2 ^ 32 ∧ off < 2 ^ 32 ∧ typ < 2 ^ 32 ∧ raw = entryBytes es size off typ := by
  by_cases fits : 12 ≤ es ∧ size < 2 ^ 32 ∧ off < 2 ^ 32 ∧ typ < 2 ^ 32
  · obtain ⟨long, sizeBound, offBound, typBound⟩ := fits
    obtain ⟨more, rfl⟩ : ∃ more, es = 12 + more := ⟨es - 12, by omega⟩
    have zeros : List.replicate (12 + more) (0 : UInt8) =
        [] ++ [0, 0, 0, 0] ++ ([0, 0, 0, 0] ++ ([0, 0, 0, 0] ++ List.replicate more 0)) := by
      rw [List.replicate_add]
      rfl
    have first := packU32_middle [] [0, 0, 0, 0]
      ([0, 0, 0, 0] ++ ([0, 0, 0, 0] ++ List.replicate more 0)) size rfl sizeBound
    have second := packU32_middle (le32 size) [0, 0, 0, 0]
      ([0, 0, 0, 0] ++ List.replicate more 0) off rfl offBound
    have third := packU32_middle (le32 size ++ le32 off) [0, 0, 0, 0]
      (List.replicate more 0) typ rfl typBound
    rw [List.length_nil, ← zeros, List.nil_append] at first
    rw [List.append_assoc, length_le32] at second
    rw [List.append_assoc, List.length_append, length_le32, length_le32] at third
    simp only [tableEntry, first, second, third]
    have final : assign (le32 size ++ le32 off ++ le32 typ ++ List.replicate more 0) 12 44
        (List.replicate 32 0) = entryBytes (12 + more) size off typ := by
      have written : assign (le32 size ++ le32 off ++ le32 typ ++ List.replicate more 0) 12 44
          (List.replicate 32 0) = _ := assign_natCast _ 12 44 _
      have front : (le32 size ++ le32 off ++ le32 typ).length = 12 := rfl
      rw [written, ← front, List.take_left, front, List.drop_append, front,
        List.drop_eq_nil_of_le (by omega), List.nil_append, List.drop_replicate, entryBytes,
        List.append_assoc _ (List.replicate 32 0), ← List.replicate_add]
      congr 2
      omega
    rw [final]
    constructor
    · intro written
      cases written
      exact ⟨long, sizeBound, offBound, typBound, rfl⟩
    · rintro ⟨_, _, _, _, rfl⟩
      rfl
  · constructor
    · intro written
      exfalso
      apply fits
      simp only [tableEntry, packU32] at written
      split at written
      · contradiction
      · rename_i first packed
        split at packed
        · rename_i firstFits
          cases packed
          split at written
          · contradiction
          · rename_i second packed
            split at packed
            · rename_i secondFits
              cases packed
              split at written
              · contradiction
              · rename_i third packed
                split at packed
                · rename_i thirdFits
                  simp only [length_assign, List.length_replicate, length_le32] at *
                  omega
                · contradiction
            · contradiction
        · contradiction
    · rintro ⟨long, sizeBound, offBound, typBound, _⟩
      exact absurd ⟨long, sizeBound, offBound, typBound⟩ fits

theorem length_pageImage :
    (pageImage tpl).length = min pageSize tpl.p0.length + (partSize - pageSize) := by
  have written : pageImage tpl = _ := assign_natCast _ 0 pageSize _
  have page := length_slice tpl.p0 0 pageSize
  have page' : (slice tpl.p0 0 pageSize).length = min pageSize tpl.p0.length := page
  rw [written]
  simp only [List.length_append, List.length_take, List.length_drop, List.length_replicate]
  rw [page']
  omega

variable {tpl f0 f1New dStart}

theorem buildFront_eq_ok_iff {img : Bytes} :
    buildFront tpl f0 f1New = .ok (img, dStart) ↔
      f0.length + f1New.length < 2 ^ 32 ∧ findDtb tpl = some dStart ∧
        img = fragmentImage tpl f0 f1New := by
  have long : 24 + 4 ≤ (pageImage tpl).length := by
    rw [length_pageImage, partSize_pages, pageSize_eq]
    omega
  have packed : packU32 (assign (List.replicate partSize 0) 0 pageSize (slice tpl.p0 0 pageSize)) 24
      (f0.length + f1New.length) =
        if f0.length + f1New.length < 2 ^ 32 then some (sizedImage tpl f0 f1New) else none := by
    by_cases bound : f0.length + f1New.length < 2 ^ 32
    · exact (if_pos ⟨bound, long⟩).trans (if_pos bound).symm
    · exact (if_neg fun fits => bound fits.1).trans (if_neg bound).symm
  unfold buildFront
  by_cases bound : f0.length + f1New.length < 2 ^ 32
  · simp only [packed, if_pos bound]
    cases found : findDtb tpl with
    | none => simp
    | some start =>
        simp only [Except.ok.injEq, Prod.mk.injEq, Option.some.injEq]
        refine ⟨fun made => ⟨bound, made.2, made.1.symm⟩, fun built => ⟨built.2.2.symm, built.2.1⟩⟩
  · simp only [packed, if_neg bound]
    exact iff_of_false (fun made => by cases made) fun fits => bound fits.1

/-- The construction is the six writes, when every number fits its field. -/
theorem buildImage_eq_ok_iff {out : Bytes} :
    buildImage tpl f0 f1New = .ok out ↔
      f0.length + f1New.length < 2 ^ 32 ∧ 12 ≤ tpl.es ∧
        ∃ dStart, findDtb tpl = some dStart ∧ out = tableImage tpl f0 f1New dStart := by
  unfold buildImage
  cases front : buildFront tpl f0 f1New with
  | error error =>
      simp only [reduceCtorEq, false_iff]
      rintro ⟨bound, _, dStart, found, _⟩
      rw [buildFront_eq_ok_iff.mpr ⟨bound, found, rfl⟩] at front
      cases front
  | ok built =>
      obtain ⟨img, start⟩ := built
      obtain ⟨bound, found, rfl⟩ := buildFront_eq_ok_iff.mp front
      simp only [found, Option.some.injEq, exists_eq_left', writeTable]
      by_cases long : 12 ≤ tpl.es
      · have first := tableEntry_eq_some_iff.mpr
          ⟨long, show f0.length < 2 ^ 32 by omega, show 0 < 2 ^ 32 by decide,
            show 0 + 1 < 2 ^ 32 by decide, rfl⟩
        have second := tableEntry_eq_some_iff.mpr
          ⟨long, show f1New.length < 2 ^ 32 by omega, show f0.length < 2 ^ 32 by omega,
            show 0 + 1 + 1 < 2 ^ 32 by decide, rfl⟩
        simp only [first, second, Except.ok.injEq, Nat.zero_mul, Nat.add_zero, Nat.zero_add,
          Nat.one_mul]
        constructor
        · rintro rfl
          exact ⟨bound, long, rfl⟩
        · rintro ⟨_, _, rfl⟩
          rfl
      · have first : tableEntry tpl.es f0.length 0 (0 + 1) = none := by
          cases written : tableEntry tpl.es f0.length 0 (0 + 1) with
          | none => rfl
          | some raw => exact absurd (tableEntry_eq_some_iff.mp written).1 long
        simp [first, long]

theorem repack_eq_ok_iff {out : Bytes} :
    repack tpl f1New = .ok out ↔
      ∃ first second rest, tpl.frags = first :: second :: rest ∧
        buildImage tpl first.payload f1New = .ok out ∧ out.length = partSize := by
  unfold repack
  split
  · rename_i first second rest frags
    constructor
    · intro passed
      split at passed
      · contradiction
      · rename_i img built
        split at passed
        · rename_i sized
          cases passed
          exact ⟨first, second, rest, frags, built, sized⟩
        · contradiction
    · rintro ⟨_, _, _, same, built, sized⟩
      rw [frags] at same
      cases same
      simp only [built, if_pos sized]
  · rename_i few
    simp only [reduceCtorEq, false_iff]
    rintro ⟨first, second, rest, frags, _⟩
    exact few first second rest frags

end Stages

section Lengths

variable (tpl : Image) (f0 f1New : Bytes) (dStart rsz : Nat)

theorem newDtbo_page : newDtbo tpl rsz % pageSize = 0 := align_mod _

theorem newTblo_page : newTblo tpl rsz % pageSize = 0 := align_mod _

theorem fragments_le_newDtbo : align tpl.hs pageSize + rsz ≤ newDtbo tpl rsz := le_align _

theorem newTblo_eq : newTblo tpl rsz = newDtbo tpl rsz + align tpl.ds pageSize := by
  unfold newTblo
  apply align_of_mod
  have dtboPage := newDtbo_page tpl rsz
  have dtbPage := align_mod tpl.ds
  unfold pageSize at *
  omega

theorem dtb_le_newTblo : newDtbo tpl rsz + tpl.ds ≤ newTblo tpl rsz := by
  rw [newTblo_eq]
  have upper := le_align tpl.ds
  omega

theorem length_sizedImage : (sizedImage tpl f0 f1New).length = (pageImage tpl).length := by
  have written : (sizedImage tpl f0 f1New).length = _ :=
    length_assign (pageImage tpl) 24 28 (le32 (f0.length + f1New.length))
  have long := length_pageImage tpl
  rw [written, length_le32]
  rw [partSize_pages, pageSize_eq] at long
  omega

/-- The fragments never shorten the image, and lengthen it only by reaching past its end. -/
theorem length_fragmentImage :
    (pageImage tpl).length ≤ (fragmentImage tpl f0 f1New).length ∧
      (align tpl.hs pageSize ≤ (pageImage tpl).length →
        (fragmentImage tpl f0 f1New).length =
          max (pageImage tpl).length
            (align tpl.hs pageSize + (f0.length + f1New.length))) := by
  have first : (f0Image tpl f0 f1New).length = _ :=
    length_assign_full (sizedImage tpl f0 f1New) (align tpl.hs pageSize) f0
  have second := length_assign_full (f0Image tpl f0 f1New) (align tpl.hs pageSize + f0.length) f1New
  rw [Nat.add_assoc (align tpl.hs pageSize)] at second
  have final : (fragmentImage tpl f0 f1New).length = _ := second
  rw [length_sizedImage] at first
  rw [final]
  split at first <;> split <;> omega

theorem length_dtbCopy :
    (dtbCopy tpl dStart).length = min (dStart + tpl.ds) tpl.raw.length - dStart :=
  length_slice _ _ _

theorem length_dtbImage :
    (dtbImage tpl f0 f1New dStart).length =
      min (newDtbo tpl (f0.length + f1New.length)) (fragmentImage tpl f0 f1New).length +
        (dtbCopy tpl dStart).length +
        ((fragmentImage tpl f0 f1New).length -
          (newDtbo tpl (f0.length + f1New.length) + tpl.ds)) := by
  rw [dtbImage, length_assign]
  omega

theorem length_firstEntryImage :
    (firstEntryImage tpl f0 f1New dStart).length =
      min (newTblo tpl (f0.length + f1New.length)) (dtbImage tpl f0 f1New dStart).length +
        max tpl.es 44 +
        ((dtbImage tpl f0 f1New dStart).length -
          (newTblo tpl (f0.length + f1New.length) + tpl.es)) := by
  rw [firstEntryImage, length_assign, length_entryBytes]
  omega

theorem length_tableImage :
    (tableImage tpl f0 f1New dStart).length =
      min (newTblo tpl (f0.length + f1New.length) + tpl.es)
          (firstEntryImage tpl f0 f1New dStart).length +
        max tpl.es 44 +
        ((firstEntryImage tpl f0 f1New dStart).length -
          (newTblo tpl (f0.length + f1New.length) + tpl.es + tpl.es)) := by
  rw [tableImage, length_assign, length_entryBytes]
  omega

variable {tpl dStart} {d : Bytes} {first second : Fragment} {rest : List Fragment}

/-- Where the sections of a template with two fragments lie. -/
theorem template_bounds (read : rd d = .ok tpl) (frags : tpl.frags = first :: second :: rest) :
    tpl.tblo = tpl.dtbo + align tpl.ds pageSize ∧ tpl.tblo + tpl.es + 12 ≤ tpl.raw.length ∧
      2128 ≤ tpl.raw.length ∧ tpl.p0 = slice tpl.raw 0 pageSize ∧
      tpl.p0.length = min pageSize tpl.raw.length := by
  obtain ⟨raw, p0, _, _, _, _, _, ⟨bootconfig, bootconfigRead⟩, ro, dtbo, tblo, loop⟩ := rd_eq_ok read
  have header := unpackU32_bound bootconfigRead
  have entry := readFrags_inside loop 1 (by simp [frags])
  have dtboPage := align_mod (tpl.ro + tpl.rs)
  have dsPage := align_mod tpl.ds
  rw [← dtbo] at dtboPage
  have table : tpl.tblo = tpl.dtbo + align tpl.ds pageSize := by
    rw [tblo]
    apply align_of_mod
    unfold pageSize at *
    omega
  have page := length_slice d 0 pageSize
  have page' : tpl.p0.length = min pageSize d.length - 0 := by
    rw [p0]
    exact page
  rw [raw]
  refine ⟨table, by omega, header, p0, page'⟩

/-- A template with a section in front of its table has a whole page 0. -/
theorem page_of_section (read : rd d = .ok tpl) (frags : tpl.frags = first :: second :: rest)
    (behind : 1 ≤ tpl.tblo) : tpl.p0.length = pageSize := by
  obtain ⟨_, entry, _, _, page⟩ := template_bounds read frags
  obtain ⟨_, _, _, _, _, _, _, _, _, _, tblo, _⟩ := rd_eq_ok read
  have onPage := align_mod (tpl.dtbo + align tpl.ds pageSize)
  rw [← tblo] at onPage
  unfold pageSize at *
  omega

theorem tblo_of_header (read : rd d = .ok tpl) (headed : 1 ≤ tpl.hs) : 1 ≤ tpl.tblo := by
  obtain ⟨_, _, _, _, _, _, _, _, ro, dtbo, tblo, _⟩ := rd_eq_ok read
  have headerEnd := le_align tpl.hs
  have ramdiskEnd := le_align (tpl.ro + tpl.rs)
  have dtbEnd := le_align (tpl.dtbo + align tpl.ds pageSize)
  omega

theorem two_entries (read : rd d = .ok tpl) (frags : tpl.frags = first :: second :: rest) :
    ∃ more, tpl.ec = more + 2 := by
  obtain ⟨_, _, _, _, _, _, _, _, _, _, _, loop⟩ := rd_eq_ok read
  have enough := length_readFrags_le loop
  rw [frags, List.length_cons, List.length_cons] at enough
  exact ⟨tpl.ec - 2, by omega⟩

/-- How much of the DTB slice can be missing: the scan stops early and a second
table entry follows the section. -/
theorem shortage (read : rd d = .ok tpl) (frags : tpl.frags = first :: second :: rest)
    (found : findDtb tpl = some dStart) :
    tpl.ds ≤ (dtbCopy tpl dStart).length ∨
      align tpl.ds pageSize + tpl.es ≤ (dtbCopy tpl dStart).length + 179 := by
  obtain ⟨table, entry, _⟩ := template_bounds read frags
  obtain ⟨lower, upper, inside, _⟩ := findDtb_eq_some found
  have copied := length_dtbCopy tpl dStart
  omega

end Lengths

end DashTwrp.VendorBoot
