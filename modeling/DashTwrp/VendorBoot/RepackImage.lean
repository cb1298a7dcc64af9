import DashTwrp.VendorBoot.Layout
import DashTwrp.VendorBoot.Placement

namespace DashTwrp.VendorBoot

open DashTwrp.Python

/-! What the size assertion of the repack tool decides, and what `rd` reads from
an image that passes it. -/

section Size

variable {d : Bytes} {tpl : Image} {f0 f1New : Bytes} {dStart : Nat}
variable {first second : Fragment} {rest : List Fragment}

/-- An image of the right size has not moved: what a short DTB slice removes is
less than what an entry behind the end adds. -/
theorem sections_fit (read : rd d = .ok tpl) (frags : tpl.frags = first :: second :: rest)
    (whole : (pageImage tpl).length = partSize) (sized : tpl.es = 108)
    (found : findDtb tpl = some dStart)
    (same : (tableImage tpl f0 f1New dStart).length = partSize) :
    newTblo tpl (f0.length + f1New.length) + 2 * 108 ≤ partSize ∧
      dStart + tpl.ds ≤ tpl.raw.length := by
  -- A short DTB slice takes at most 71 bytes away.
  have shrunk : (fragmentImage tpl f0 f1New).length ≤
      (dtbImage tpl f0 f1New dStart).length + 71 := by
    have missing := shortage read frags found
    have dtbEnd := le_align tpl.ds
    rw [length_dtbImage]
    omega
  have fragmentLength := length_fragmentImage tpl f0 f1New
  rw [whole] at fragmentLength
  -- Two entries behind the end would add 216 bytes.
  have inside : newTblo tpl (f0.length + f1New.length) < partSize := by
    by_contra past
    have firstLower : min (newTblo tpl (f0.length + f1New.length))
        (dtbImage tpl f0 f1New dStart).length + 108 ≤
          (firstEntryImage tpl f0 f1New dStart).length := by
      rw [length_firstEntryImage, sized]
      exact Nat.le_add_right _ _
    have tableLower : min (newTblo tpl (f0.length + f1New.length) + 108)
        (firstEntryImage tpl f0 f1New dStart).length + 108 ≤
          (tableImage tpl f0 f1New dStart).length := by
      rw [length_tableImage, sized]
      exact Nat.le_add_right _ _
    have firstStart : partSize ≤ min (newTblo tpl (f0.length + f1New.length))
        (dtbImage tpl f0 f1New dStart).length + 71 := by omega
    omega
  -- On a page boundary inside the partition the whole table fits.
  have fits : newTblo tpl (f0.length + f1New.length) + 4096 ≤ partSize := by
    have tablePage := newTblo_page tpl (f0.length + f1New.length)
    have partPage := partSize_mod
    unfold pageSize at tablePage partPage
    omega
  refine ⟨by omega, ?_⟩
  by_contra cut
  have sections := newTblo_eq tpl (f0.length + f1New.length)
  have dtbEnd := le_align tpl.ds
  have fragmentsEnd := fragments_le_newDtbo tpl (f0.length + f1New.length)
  have unmoved : (fragmentImage tpl f0 f1New).length = partSize := by
    rw [fragmentLength.2 (by omega)]
    omega
  have copied := length_dtbCopy tpl dStart
  have start := (findDtb_eq_some found).2.2.1
  have short : (dtbCopy tpl dStart).length < tpl.ds := by omega
  have dtbCut : (dtbImage tpl f0 f1New dStart).length =
      partSize - tpl.ds + (dtbCopy tpl dStart).length := by
    rw [length_dtbImage, unmoved, Nat.min_eq_left (by omega)]
    omega
  have firstLength : (firstEntryImage tpl f0 f1New dStart).length =
      (dtbImage tpl f0 f1New dStart).length := by
    rw [length_firstEntryImage, sized, Nat.min_eq_left (by omega),
      Nat.max_eq_left (by decide)]
    omega
  rw [length_tableImage, firstLength, sized, Nat.min_eq_left (by omega),
    Nat.max_eq_left (by decide)] at same
  omega

/-- With entries of 108 bytes the size assertion accepts exactly the images in
which every section is in place. -/
theorem length_tableImage_eq_iff (read : rd d = .ok tpl)
    (frags : tpl.frags = first :: second :: rest) (page : tpl.p0.length = pageSize)
    (sized : tpl.es = 108) (found : findDtb tpl = some dStart) :
    (tableImage tpl f0 f1New dStart).length = partSize ↔
      newTblo tpl (f0.length + f1New.length) + 2 * 108 ≤ partSize ∧
        dStart + tpl.ds ≤ tpl.raw.length := by
  constructor
  · have whole : (pageImage tpl).length = partSize := by
      rw [length_pageImage, page, Nat.min_self, Nat.add_sub_cancel' page_le_partSize]
    exact sections_fit read frags whole sized found
  · rintro ⟨fits, whole⟩
    exact Placed.length_table ⟨page, by omega, by rw [sized]; exact fits, whole⟩

end Size

section Entries

/-- What `rd` reports of a table entry of zeros. -/
def blankFragment : Fragment where
  sz := 0
  off := 0
  typ := 0
  name := ""
  payload := []

variable {d : Bytes} {start : Nat}

theorem unpackU32_zeros (zeros : ∀ index, start ≤ index → index < d.length → d[index]? = some 0)
    (offset : Nat) (within : start ≤ offset) (inside : offset + 4 ≤ d.length) :
    unpackU32 d offset = some 0 := by
  rw [unpackU32, slice_replicate d 0 start offset (offset + 4) zeros within,
    Nat.min_eq_left inside, Nat.add_sub_cancel_left]
  rfl

theorem decodeUtf8_zeros (count : Nat) :
    decodeUtf8 (rstripNul (List.replicate count 0)) = some "" := by
  have stripped := decodeUtf8_rstripNul "" count
  simpa [encodeUtf8, strippedText] using stripped

/-- Entries behind the last written byte read as blank fragments, and all of them
are read when the whole table lies in the file. -/
theorem readFrags_zeros (ro tblo es i remaining : Nat)
    (zeros : ∀ index, start ≤ index → index < d.length → d[index]? = some 0)
    (behind : start ≤ tblo + i * es) :
    ∃ count, readFrags d ro tblo es i remaining = .ok (List.replicate count blankFragment) ∧
      (12 ≤ es → tblo + (i + remaining) * es ≤ d.length → count = remaining) := by
  induction remaining generalizing i with
  | zero => exact ⟨0, rfl, fun _ _ => rfl⟩
  | succ remaining ih =>
      by_cases past : tblo + i * es + 12 > d.length
      · refine ⟨0, by simp only [readFrags, if_pos past]; rfl, fun long whole => ?_⟩
        have grown : i * es + es ≤ (i + (remaining + 1)) * es := by
          rw [← Nat.succ_mul]
          exact Nat.mul_le_mul_right _ (by omega)
        omega
      · have next : i * es ≤ (i + 1) * es := Nat.mul_le_mul_right _ (by omega)
        obtain ⟨count, read, whole⟩ := ih (i + 1) (by omega)
        have entry : readEntry d ro (tblo + i * es) = .ok blankFragment := by
          have name : decodeUtf8 (rstripNul (slice d (tblo + i * es + 12 : Nat)
              (tblo + i * es + 44 : Nat))) = some "" := by
            rw [slice_replicate d 0 start _ _ zeros (by omega)]
            exact decodeUtf8_zeros _
          rw [readEntry_of_fields (unpackU32_zeros zeros _ (by omega) (by omega))
            (unpackU32_zeros zeros _ (by omega) (by omega))
            (unpackU32_zeros zeros _ (by omega) (by omega)) name]
          rfl
        refine ⟨count + 1, ?_, fun long inside => ?_⟩
        · simp only [readFrags, if_neg past, entry, read, List.replicate_succ]
        · rw [whole long (by rw [Nat.add_right_comm, Nat.add_assoc]; exact inside)]

/-- A table entry the repack tool has written, as `rd` reads it. -/
theorem readEntry_written {tblo es size off typ : Nat} (ro : Nat) (long : 44 ≤ es)
    (small : size < 2 ^ 32) (offSmall : off < 2 ^ 32) (typSmall : typ < 2 ^ 32)
    (entry : slice d tblo (tblo + es : Nat) = entryBytes es size off typ)
    (inside : ro + off + size ≤ d.length) :
    readEntry d ro tblo = .ok {
      sz := size
      off := off
      typ := typ
      name := ""
      payload := slice d (ro + off : Nat) (ro + off + size : Nat) } := by
  rw [entryBytes] at entry
  have szRead : unpackU32 d tblo = some size :=
    unpackU32_within tblo (tblo + es) 0 [] (le32 off ++ le32 typ ++ List.replicate (max es 44 - 12) 0) size
      (by rw [entry]; simp) rfl (by omega) small
  have offRead : unpackU32 d (tblo + 4) = some off :=
    unpackU32_within tblo (tblo + es) 4 (le32 size)
      (le32 typ ++ List.replicate (max es 44 - 12) 0) off
      (by rw [entry]; simp) rfl (by omega) offSmall
  have typRead : unpackU32 d (tblo + 8) = some typ :=
    unpackU32_within tblo (tblo + es) 8 (le32 size ++ le32 off)
      (List.replicate (max es 44 - 12) 0) typ entry rfl (by omega) typSmall
  have name : decodeUtf8 (rstripNul (slice d (tblo + 12 : Nat) (tblo + 44 : Nat))) = some "" := by
    rw [← slice_slice d tblo (tblo + es) 12 44 (by omega), entry, slice_natCast]
    have cells : (le32 size ++ le32 off ++ le32 typ).length = 12 := rfl
    rw [List.drop_take, ← cells, List.drop_left, List.take_replicate]
    exact decodeUtf8_zeros _
  rw [readEntry_of_fields szRead offRead typRead name, guarded_payload inside]

end Entries

namespace Placed

variable {d : Bytes} {tpl : Image} {f0 f1New : Bytes} {dStart : Nat}
variable (placed : Placed tpl f0 f1New dStart)

include placed

/-- A header field outside `vendor_ramdisk_size` is the template's. -/
theorem header_field (headed : 1 ≤ tpl.hs) (page : tpl.p0 = slice d 0 pageSize) (offset : Nat)
    (apart : offset + 4 ≤ 24 ∨ 28 ≤ offset) (inside : offset + 4 ≤ pageSize) :
    unpackU32 (tableImage tpl f0 f1New dStart) offset = unpackU32 d offset := by
  have copied : slice d 0 pageSize = tpl.p0 := page.symm
  have kept := unpackU32_of_slice 0 pageSize copied offset (by omega)
  have written := unpackU32_of_slice 0 pageSize
    (rfl : slice (tableImage tpl f0 f1New dStart) _ _ = _) offset (by omega)
  rw [Nat.zero_add] at kept written
  rw [kept, written]
  exact unpackU32_congr (placed.page_outside headed) offset apart

theorem ramdisk_size_field (headed : 1 ≤ tpl.hs) (bound : f0.length + f1New.length < 2 ^ 32) :
    unpackU32 (tableImage tpl f0 f1New dStart) 24 = some (f0.length + f1New.length) := by
  rw [placed.size_field headed]
  have written : slice (sizedImage tpl f0 f1New) (24 : Nat) (28 : Nat) = _ :=
    slice_assign_self (pageImage tpl) 24 (le32 (f0.length + f1New.length))
      (by rw [placed.length_page, partSize_pages, pageSize_eq]; omega)
  exact unpackU32_within 24 28 0 [] [] _ (by rw [List.nil_append, List.append_nil]; exact written)
    rfl (Nat.le_refl 28) bound

/-- Behind the table the image is zero. -/
theorem zero_behind (index : Nat)
    (behind : newTblo tpl (f0.length + f1New.length) + (tpl.es + tpl.es) ≤ index)
    (headed : 1 ≤ tpl.hs) (inside : index < (tableImage tpl f0 f1New dStart).length) :
    (tableImage tpl f0 f1New dStart)[index]? = some 0 := by
  obtain ⟨fragmentsEnd, dtbEnd, tableEnd⟩ := placed.order
  have front := page_le_align headed
  rw [placed.length_table] at inside
  exact placed.zero_elsewhere index (by omega) inside (.inr (by omega)) (.inr (by omega))
    (.inr behind)

/-- The fragments `rd` reads from the new image: the two that were written, and
blank ones for the remaining entries of the template's table. -/
theorem readFrags_tableImage (headed : 1 ≤ tpl.hs) (bound : f0.length + f1New.length < 2 ^ 32)
    (more : Nat) :
    ∃ count, readFrags (tableImage tpl f0 f1New dStart) (align tpl.hs pageSize)
        (newTblo tpl (f0.length + f1New.length)) tpl.es 0 (more + 2) =
          .ok ({ sz := f0.length, off := 0, typ := 1, name := "", payload := f0 } ::
            { sz := f1New.length, off := f0.length, typ := 2, name := "", payload := f1New } ::
            List.replicate count blankFragment) ∧
        (newTblo tpl (f0.length + f1New.length) + (2 + more) * tpl.es ≤ partSize →
          count = more) := by
  obtain ⟨fragmentsEnd, dtbEnd, tableEnd⟩ := placed.order
  have long := placed.entry_long
  have total := placed.length_table
  obtain ⟨count, rest, whole⟩ := readFrags_zeros (align tpl.hs pageSize)
    (newTblo tpl (f0.length + f1New.length)) tpl.es 2 more
    (fun index behind inside => placed.zero_behind index behind headed inside) (by omega)
  refine ⟨count, ?_, fun fits => whole (by omega) (by rw [total]; exact fits)⟩
  have firstEntry := readEntry_written (align tpl.hs pageSize) long (by omega)
    (by decide) (by decide) placed.slice_first_entry (by omega)
  have secondEntry := readEntry_written (align tpl.hs pageSize) long (by omega)
    (by omega) (by decide) placed.slice_second_entry (by omega)
  rw [Nat.add_zero, placed.slice_f0] at firstEntry
  rw [placed.slice_f1] at secondEntry
  have firstInside : ¬ newTblo tpl (f0.length + f1New.length) + 0 * tpl.es + 12 >
      (tableImage tpl f0 f1New dStart).length := by omega
  have secondInside : ¬ newTblo tpl (f0.length + f1New.length) + (0 + 1) * tpl.es + 12 >
      (tableImage tpl f0 f1New dStart).length := by omega
  simp only [readFrags, if_neg firstInside, if_neg secondInside]
  simp only [Nat.zero_mul, Nat.add_zero, Nat.zero_add, Nat.one_mul, firstEntry, secondEntry,
    Nat.reduceAdd, rest]

/-- What `rd` reads from the new image. -/
theorem rd_tableImage (read : rd d = .ok tpl) (headed : 1 ≤ tpl.hs)
    (bound : f0.length + f1New.length < 2 ^ 32) {more : Nat} (entries : tpl.ec = more + 2) :
    ∃ count, rd (tableImage tpl f0 f1New dStart) = .ok {
        raw := tableImage tpl f0 f1New dStart
        p0 := slice (tableImage tpl f0 f1New dStart) 0 pageSize
        hs := tpl.hs
        ds := tpl.ds
        rs := f0.length + f1New.length
        ro := align tpl.hs pageSize
        dtbo := newDtbo tpl (f0.length + f1New.length)
        tblo := newTblo tpl (f0.length + f1New.length)
        ec := tpl.ec
        es := tpl.es
        frags :=
          { sz := f0.length, off := 0, typ := 1, name := "", payload := f0 } ::
          { sz := f1New.length, off := f0.length, typ := 2, name := "", payload := f1New } ::
          List.replicate count blankFragment } ∧
      (newTblo tpl (f0.length + f1New.length) + (2 + more) * tpl.es ≤ partSize →
        count = more) := by
  obtain ⟨_, page, hsRead, dsRead, ecRead, esRead, _, ⟨bootconfig, bootconfigRead⟩, _⟩ :=
    rd_eq_ok read
  obtain ⟨count, frags, whole⟩ := placed.readFrags_tableImage headed bound more
  refine ⟨count, ?_, whole⟩
  have header := unpackU32_bound bootconfigRead
  obtain ⟨tableSize, tableSizeRead⟩ : ∃ tableSize, unpackU32 d 2112 = some tableSize :=
    unpackU32_isSome (by omega)
  have field := placed.header_field headed page
  rw [← field 2096 (.inr (by decide)) (by decide)] at hsRead
  rw [← field 2100 (.inr (by decide)) (by decide)] at dsRead
  rw [← field 2112 (.inr (by decide)) (by decide)] at tableSizeRead
  rw [← field 2116 (.inr (by decide)) (by decide)] at ecRead
  rw [← field 2120 (.inr (by decide)) (by decide)] at esRead
  rw [← field 2124 (.inr (by decide)) (by decide)] at bootconfigRead
  have rsRead := placed.ramdisk_size_field headed bound
  have dtbo : align (align tpl.hs pageSize + (f0.length + f1New.length)) pageSize =
      newDtbo tpl (f0.length + f1New.length) := rfl
  have tblo : align (newDtbo tpl (f0.length + f1New.length) + align tpl.ds pageSize) pageSize =
      newTblo tpl (f0.length + f1New.length) := rfl
  simp only [rd, hsRead, dsRead, tableSizeRead, ecRead, esRead, bootconfigRead, rsRead, dtbo, tblo,
    entries, frags]

end Placed

section Templates

/-- A template in the file holds the magic where its DTB holds it. -/
theorem Layout.findDtb_image (layout : Layout) (shift : Nat)
    (found : findMagic layout.dtb 0 256 = some (64 + shift)) :
    findDtb layout.image = some (layout.dtbo + shift) := by
  obtain ⟨_, upper, magic, first⟩ := findMagic_eq_some found
  have magicLength := congrArg List.length magic
  rw [length_slice] at magicLength
  have magicWhole : fdtMagic.length = 4 := rfl
  have ends := layout.length_encode
  have dtbEnd := le_align layout.dtb.length
  have tblo : layout.tblo = layout.dtbo + align layout.dtb.length pageSize := rfl
  have window (o : Nat) (inside : o + 4 ≤ layout.dtb.length) :
      slice layout.encode (layout.dtbo + o : Nat) (layout.dtbo + o + 4 : Nat) =
        slice layout.dtb o (o + 4 : Nat) := by
    rw [Nat.add_assoc]
    exact layout.slice_dtb o (o + 4) inside
  apply findDtb_of_first
  · exact Nat.le_add_right _ _
  · change layout.dtbo + shift + 64 < layout.dtbo + 256
    omega
  · change layout.dtbo + shift + 64 < layout.encode.length
    omega
  · change slice layout.encode (layout.dtbo + shift + 64 : Nat) (layout.dtbo + shift + 64 + 4 : Nat) = _
    rw [show layout.dtbo + shift + 64 = layout.dtbo + (64 + shift) by omega,
      window (64 + shift) (by omega)]
    exact magic
  · intro earlier below above
    change layout.dtbo ≤ earlier at below
    obtain ⟨o, rfl⟩ : ∃ o, earlier = layout.dtbo + o := ⟨earlier - layout.dtbo, by omega⟩
    change slice layout.encode (layout.dtbo + o : Nat) (layout.dtbo + o + 4 : Nat) ≠ _
    rw [window o (by omega)]
    exact first o (Nat.zero_le _) (by omega)

theorem Layout.page_le_encode (layout : Layout) : pageSize ≤ layout.encode.length := by
  have ends := layout.length_encode
  have header := layout.header_long
  have headerEnd : pageSize ≤ layout.ro := page_le_align (by omega)
  simp only [tblo, dtbo] at ends
  omega

theorem Layout.length_image_p0 (layout : Layout) : layout.image.p0.length = pageSize := by
  have page : layout.image.p0.length = _ := length_slice layout.encode 0 pageSize
  rw [page, Nat.min_eq_left layout.page_le_encode]
  exact Nat.sub_zero _

def platformFragment : TableFragment where
  typ := 1
  name := ""
  boardId := List.replicate 64 0
  payload := [0xf0]

def recoveryFragment (recoveryName : String) : TableFragment where
  typ := 2
  name := recoveryName
  boardId := List.replicate 64 0
  payload := [0xf1]

/-- The fragments of a stock image. -/
def stockFragments (recoveryName : String) : List TableFragment :=
  [platformFragment, recoveryFragment recoveryName]

variable (recoveryName : String) (dtb : Bytes) (bootconfigSize : Nat) (trailing : Bytes)
variable (short : (encodeUtf8 recoveryName).length ≤ 32)
variable (small : dtb.length < 2 ^ 32 ∧ bootconfigSize < 2 ^ 32)

def stockLayout : Layout :=
  .ofSections (stockFragments recoveryName) dtb 108 bootconfigSize trailing (by decide)
    (by
      intro fragment member
      rcases List.mem_cons.mp member with rfl | later
      · decide
      · rw [List.mem_singleton.mp later]
        exact short)
    (by
      intro fragment member
      rcases List.mem_cons.mp member with rfl | later
      · decide
      · rw [List.mem_singleton.mp later]
        rfl)
    ⟨by change 2 < 2 ^ 32; decide, small.1, by change 2 < 2 ^ 32; decide, by decide, small.2⟩

/-- On a stock template with a small DTB every write of the tool lands in place. -/
theorem stockLayout_placed (f1New : Bytes) (shift : Nat) (nonempty : 1 ≤ dtb.length)
    (dtbShort : dtb.length + shift ≤ 4096) (f1Short : f1New.length < 4096) :
    Placed (stockLayout recoveryName dtb bootconfigSize trailing short small).image [0xf0] f1New
      ((stockLayout recoveryName dtb bootconfigSize trailing short small).dtbo + shift) := by
  have header : (stockLayout recoveryName dtb bootconfigSize trailing short small).image.hs =
    2128 := length_headerOf _ _ _ _ _
  have dtbSize : (stockLayout recoveryName dtb bootconfigSize trailing short small).image.ds =
    dtb.length := rfl
  have entrySize : (stockLayout recoveryName dtb bootconfigSize trailing short small).image.es =
    108 := rfl
  have ends := (stockLayout recoveryName dtb bootconfigSize trailing short small).length_encode
  have tblo : (stockLayout recoveryName dtb bootconfigSize trailing short small).tblo =
    (stockLayout recoveryName dtb bootconfigSize trailing short small).dtbo +
      align dtb.length pageSize := rfl
  have onePage : 4096 ≤ align dtb.length pageSize := page_le_align nonempty
  refine ⟨Layout.length_image_p0 _, by rw [entrySize]; decide, ?_, ?_⟩
  · have headerPage : align 2128 pageSize = 4096 := rfl
    have dtboEnd := align_lt (4096 + ([(0xf0 : UInt8)].length + f1New.length))
    have dtbEnd := align_lt dtb.length
    have total : partSize = 67108864 := rfl
    rw [newTblo_eq, newDtbo, header, dtbSize, entrySize, headerPage]
    rw [List.length_singleton] at *
    unfold pageSize at *
    omega
  · rw [dtbSize]
    change _ ≤ (stockLayout recoveryName dtb bootconfigSize trailing short small).encode.length
    omega

theorem stockLayout_frags :
    (stockLayout recoveryName dtb bootconfigSize trailing short small).image.frags = [
      { sz := 1, off := 0, typ := 1, name := "", payload := [0xf0] },
      { sz := 1, off := 1, typ := 2, name := strippedText recoveryName, payload := [0xf1] }] := by
  rfl

/-- The tool accepts a stock template with a small DTB. -/
theorem stockLayout_repacked (f1New : Bytes) (shift : Nat) (nonempty : 1 ≤ dtb.length)
    (dtbShort : dtb.length + shift ≤ 4096) (f1Short : f1New.length < 4096)
    (found : findMagic dtb 0 256 = some (64 + shift)) :
    repack (stockLayout recoveryName dtb bootconfigSize trailing short small).image f1New =
      .ok (tableImage (stockLayout recoveryName dtb bootconfigSize trailing short small).image
        [0xf0] f1New
        ((stockLayout recoveryName dtb bootconfigSize trailing short small).dtbo + shift)) := by
  have placed := stockLayout_placed recoveryName dtb bootconfigSize trailing short small f1New shift
    nonempty dtbShort f1Short
  have bound : [(0xf0 : UInt8)].length + f1New.length < 2 ^ 32 := by
    rw [List.length_singleton]
    omega
  have searched : findDtb (stockLayout recoveryName dtb bootconfigSize trailing short small).image =
      some _ := Layout.findDtb_image _ shift found
  have long : 12 ≤ (stockLayout recoveryName dtb bootconfigSize trailing short small).image.es :=
    show 12 ≤ 108 by decide
  have built := buildImage_eq_ok_iff.mpr ⟨bound, long, _, searched, rfl⟩
  rw [repack_eq_ok_iff]
  exact ⟨_, _, [], stockLayout_frags recoveryName dtb bootconfigSize trailing short small, built,
    placed.length_table⟩

end Templates

/-- What `rd` and a byte comparison find in an image of the repack tool. -/
structure RepackedImage (tpl : Image) (f0 f1New out : Bytes) : Prop where
  reads : ∃ image rest, rd out = .ok image ∧
    image.frags =
      { sz := f0.length, off := 0, typ := 1, name := "", payload := f0 } ::
      { sz := f1New.length, off := f0.length, typ := 2, name := "", payload := f1New } :: rest ∧
    image.rs = f0.length + f1New.length ∧ SameOutside 24 28 image.p0 tpl.p0
  zero : ∀ index, pageSize ≤ index → index < out.length →
    (index < align tpl.hs pageSize ∨
      align tpl.hs pageSize + (f0.length + f1New.length) ≤ index) →
    (index < newDtbo tpl (f0.length + f1New.length) ∨
      newDtbo tpl (f0.length + f1New.length) + tpl.ds ≤ index) →
    (index < newTblo tpl (f0.length + f1New.length) ∨
      newTblo tpl (f0.length + f1New.length) + 2 * 108 ≤ index) →
    out[index]? = some 0

/-- A device tree container whose first blob begins 64 bytes in. -/
def oneEntryDtb : Bytes := List.replicate 64 0 ++ fdtMagic

theorem recoveryName_short : (encodeUtf8 "recovery").length ≤ 32 := by decide

theorem oneEntryDtb_small : oneEntryDtb.length < 2 ^ 32 := by decide

theorem oneEntryDtb_sizes : oneEntryDtb.length < 2 ^ 32 ∧ 0 < 2 ^ 32 :=
  ⟨oneEntryDtb_small, Nat.two_pow_pos 32⟩

def oneEntryLayout : Layout :=
  stockLayout "recovery" oneEntryDtb 0 [] recoveryName_short oneEntryDtb_sizes

theorem oneEntryLayout_found : findDtb oneEntryLayout.image = some (oneEntryLayout.dtbo + 0) :=
  oneEntryLayout.findDtb_image 0 (by decide)

theorem oneEntryLayout_placed :
    Placed oneEntryLayout.image [0xf0] [1, 2, 3] (oneEntryLayout.dtbo + 0) :=
  stockLayout_placed "recovery" oneEntryDtb 0 [] _ _ [1, 2, 3] 0 (by decide) (by decide) (by decide)

theorem oneEntryLayout_repacked : repack oneEntryLayout.image [1, 2, 3] =
    .ok (tableImage oneEntryLayout.image [0xf0] [1, 2, 3] (oneEntryLayout.dtbo + 0)) :=
  stockLayout_repacked "recovery" oneEntryDtb 0 [] _ _ [1, 2, 3] 0 (by decide) (by decide)
    (by decide) (by decide)

section Repacked

variable {d f1New img : Bytes} {tpl : Image} {first second : Fragment} {rest : List Fragment}
variable {dStart : Nat}

/-- The size assertion accepts exactly the images whose table ends inside the
partition and whose DTB was copied whole, and such an image reads back as the
template's F0 and the new F1 under the template's header. -/
theorem repacked_image_reads_back (read : rd d = .ok tpl)
    (frags : tpl.frags = first :: second :: rest) (headed : 1 ≤ tpl.hs) (sized : tpl.es = 108)
    (front : buildFront tpl first.payload f1New = .ok (img, dStart)) :
    ∃ out, buildImage tpl first.payload f1New = .ok out ∧
      (repack tpl f1New = .ok out ↔
        newTblo tpl (first.payload.length + f1New.length) + 2 * 108 ≤ partSize ∧
          dStart + tpl.ds ≤ d.length) ∧
      (repack tpl f1New = .ok out → RepackedImage tpl first.payload f1New out) := by
  obtain ⟨bound, found, _⟩ := buildFront_eq_ok_iff.mp front
  have raw := (rd_eq_ok read).1
  have page := page_of_section read frags (tblo_of_header read headed)
  have built : buildImage tpl first.payload f1New =
      .ok (tableImage tpl first.payload f1New dStart) :=
    buildImage_eq_ok_iff.mpr ⟨bound, by omega, dStart, found, rfl⟩
  have passes : repack tpl f1New = .ok (tableImage tpl first.payload f1New dStart) ↔
      newTblo tpl (first.payload.length + f1New.length) + 2 * 108 ≤ partSize ∧
        dStart + tpl.ds ≤ d.length := by
    have size : (tableImage tpl first.payload f1New dStart).length = partSize ↔ _ :=
      length_tableImage_eq_iff read frags page sized found
    rw [raw] at size
    rw [← size, repack_eq_ok_iff]
    constructor
    · rintro ⟨_, _, _, _, _, passed⟩
      exact passed
    · intro passed
      exact ⟨first, second, rest, frags, built, passed⟩
  refine ⟨_, built, passes, fun passed => ?_⟩
  obtain ⟨fits, whole⟩ := passes.mp passed
  have placed : Placed tpl first.payload f1New dStart :=
    ⟨page, by omega, by rw [sized]; exact fits, by rw [raw]; exact whole⟩
  obtain ⟨more, entries⟩ := two_entries read frags
  obtain ⟨count, readBack, _⟩ := placed.rd_tableImage read headed bound entries
  constructor
  · exact ⟨_, _, readBack, rfl, rfl, placed.page_outside headed⟩
  · intro index behindPage inside notFragments notDtb notTable
    rw [placed.length_table] at inside
    exact placed.zero_elsewhere index behindPage inside notFragments notDtb
      (by rw [sized]; exact notTable)

/-- A stock template with a one-byte F0 and a new F1 of three bytes. -/
theorem repacked_image_reads_back_stock :
    ∃ out, repack oneEntryLayout.image [1, 2, 3] = .ok out ∧
      RepackedImage oneEntryLayout.image [0xf0] [1, 2, 3] out := by
  have front := buildFront_eq_ok_iff.mpr
    ⟨show [(0xf0 : UInt8)].length + [1, 2, 3].length < 2 ^ 32 by decide,
      oneEntryLayout_found, rfl⟩
  have header : oneEntryLayout.image.hs = 2128 := length_headerOf _ _ _ _ _
  have entrySize : oneEntryLayout.image.es = 108 := rfl
  have fits := oneEntryLayout_placed.fits
  rw [entrySize] at fits
  obtain ⟨out, _, passes, reads⟩ := repacked_image_reads_back oneEntryLayout.rd_encode
    (stockLayout_frags _ _ _ _ _ _)
    (by rw [header]; decide) entrySize front
  have passed := passes.mpr ⟨fits, oneEntryLayout_placed.whole⟩
  exact ⟨out, passed, reads passed⟩

end Repacked

end DashTwrp.VendorBoot
