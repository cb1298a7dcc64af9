import DashTwrp.VendorBoot.RepackImage

namespace DashTwrp.VendorBoot

open DashTwrp.Python

/-! The DTB section of a repacked image.  The copy starts 64 bytes in front of
the first magic of the section, which is the start of the section only when the
first blob begins at offset 64. -/

/-- The first magic behind `start` is `position` bytes behind it. -/
def FirstMagic (raw : Bytes) (start position : Nat) : Prop :=
  slice raw (start + position : Nat) (start + position + 4 : Nat) = fdtMagic ∧
    ∀ earlier, earlier < position →
      slice raw (start + earlier : Nat) (start + earlier + 4 : Nat) ≠ fdtMagic

theorem FirstMagic.unique {raw : Bytes} {start position other : Nat}
    (first : FirstMagic raw start position) (second : FirstMagic raw start other) :
    position = other := by
  rcases Nat.lt_trichotomy position other with before | same | behind
  · exact absurd first.1 (second.2 position before)
  · exact same
  · exact absurd second.1 (first.2 other behind)

variable {d f0 f1New out : Bytes} {tpl : Image} {dStart : Nat}
variable {first second : Fragment} {rest : List Fragment}

/-- Where the DTB search starts the copy, measured from the section. -/
theorem findDtb_firstMagic (found : findDtb tpl = some dStart) :
    ∃ shift, dStart = tpl.dtbo + shift ∧ FirstMagic tpl.raw tpl.dtbo (64 + shift) := by
  obtain ⟨lower, _, _, magic, earliest⟩ := findDtb_eq_some found
  obtain ⟨shift, rfl⟩ : ∃ shift, dStart = tpl.dtbo + shift := ⟨dStart - tpl.dtbo, by omega⟩
  refine ⟨shift, rfl, ?_, fun earlier before => earliest _ (by omega) (by omega)⟩
  rw [show tpl.dtbo + (64 + shift) = tpl.dtbo + shift + 64 by omega]
  exact magic

/-- In an image of the right size the DTB was not written behind the end. -/
theorem newDtbo_inside (whole : (pageImage tpl).length = partSize)
    (sized : (tableImage tpl f0 f1New dStart).length = partSize) :
    newDtbo tpl (f0.length + f1New.length) ≤ (fragmentImage tpl f0 f1New).length := by
  by_contra past
  have fragmentLower := (length_fragmentImage tpl f0 f1New).1
  have dtbEnd := dtb_le_newTblo tpl (f0.length + f1New.length)
  have dtbLower : partSize ≤ (dtbImage tpl f0 f1New dStart).length := by
    rw [length_dtbImage]
    omega
  have firstLower : partSize + 44 ≤ (firstEntryImage tpl f0 f1New dStart).length := by
    rw [length_firstEntryImage]
    omega
  rw [length_tableImage] at sized
  omega

/-- The copied bytes are found in the DTB section of the new image, even when
the copy was cut short and the table has moved. -/
theorem getElem?_dtb (inside : newDtbo tpl (f0.length + f1New.length) ≤
      (fragmentImage tpl f0 f1New).length) (index : Nat)
    (copied : index < (dtbCopy tpl dStart).length) :
    (tableImage tpl f0 f1New dStart)[newDtbo tpl (f0.length + f1New.length) + index]? =
      (dtbCopy tpl dStart)[index]? := by
  have dtbEnd := dtb_le_newTblo tpl (f0.length + f1New.length)
  have copyLength := length_dtbCopy tpl dStart
  have dtbLower : newDtbo tpl (f0.length + f1New.length) + index <
      (dtbImage tpl f0 f1New dStart).length := by
    rw [length_dtbImage, Nat.min_eq_left inside]
    omega
  have firstLower : newDtbo tpl (f0.length + f1New.length) + index <
      (firstEntryImage tpl f0 f1New dStart).length := by
    rw [length_firstEntryImage]
    omega
  rw [tableImage, getElem?_assign_front _ _ _ _ _ (by omega) firstLower, firstEntryImage,
    getElem?_assign_front _ _ _ _ _ (by omega) dtbLower, dtbImage, getElem?_assign _ _ _ _ _ inside,
    if_neg (by omega), if_pos (by omega), Nat.add_sub_cancel_left]

/-- A DTB that is cut short is longer than the stretch the scan covers. -/
theorem copy_long (read : rd d = .ok tpl) (frags : tpl.frags = first :: second :: rest)
    (found : findDtb tpl = some dStart) (nonempty : 1 ≤ tpl.ds) :
    (dtbCopy tpl dStart).length = tpl.ds ∨ 68 ≤ (dtbCopy tpl dStart).length := by
  have missing := shortage read frags found
  have onePage := page_le_align nonempty
  have copied := length_dtbCopy tpl dStart
  unfold pageSize at *
  omega

/-- A copy that was not cut short is the DTB section of the new image. -/
theorem slice_whole_dtb (inside : newDtbo tpl (f0.length + f1New.length) ≤
      (fragmentImage tpl f0 f1New).length) (whole : (dtbCopy tpl dStart).length = tpl.ds) :
    slice (tableImage tpl f0 f1New dStart) (newDtbo tpl (f0.length + f1New.length) : Nat)
      (newDtbo tpl (f0.length + f1New.length) + tpl.ds : Nat) = dtbCopy tpl dStart := by
  apply List.ext_getElem?
  intro index
  rw [getElem?_slice]
  by_cases copied : index < tpl.ds
  · rw [if_pos (by omega), getElem?_dtb inside index (by omega)]
  · rw [if_neg (by omega), List.getElem?_eq_none (by omega)]

/-- A shifted copy puts the magic in front of the place where the template has
its first one. -/
theorem shifted_dtb_differs {shift : Nat} (inside : newDtbo tpl (f0.length + f1New.length) ≤
      (fragmentImage tpl f0 f1New).length) (magic : FirstMagic tpl.raw tpl.dtbo (64 + shift))
    (shifted : 1 ≤ shift) (long : 68 ≤ (dtbCopy tpl (tpl.dtbo + shift)).length) :
    slice (tableImage tpl f0 f1New (tpl.dtbo + shift))
        (newDtbo tpl (f0.length + f1New.length) : Nat)
        (newDtbo tpl (f0.length + f1New.length) + tpl.ds : Nat) ≠
      slice tpl.raw tpl.dtbo (tpl.dtbo + tpl.ds : Nat) := by
  intro same
  apply magic.2 64 (by omega)
  have copyLength := length_dtbCopy tpl (tpl.dtbo + shift)
  rw [← magic.1]
  apply List.ext_getElem?
  intro index
  simp only [getElem?_slice]
  by_cases four : index < 4
  · have position := congrArg (fun bytes => bytes[64 + index]?) same
    simp only [getElem?_slice] at position
    rw [if_pos (by omega), if_pos (by omega), getElem?_dtb inside _ (by omega), dtbCopy,
      getElem?_slice, if_pos (by omega)] at position
    rw [if_pos (by omega), if_pos (by omega), Nat.add_assoc, ← position]
    congr 1
    omega
  · rw [if_neg (by omega), if_neg (by omega)]

/-- The DTB section of every image the tool accepts is the template's exactly
when the first magic is at offset 64 of the section, or when the section ends
within 68 bytes and happens to repeat itself. -/
theorem repacked_dtb_kept_iff (read : rd d = .ok tpl)
    (frags : tpl.frags = first :: second :: rest) (passed : repack tpl f1New = .ok out) :
    slice out (newDtbo tpl (first.payload.length + f1New.length) : Nat)
        (newDtbo tpl (first.payload.length + f1New.length) + tpl.ds : Nat) =
      slice d tpl.dtbo (tpl.dtbo + tpl.ds : Nat) ↔
    FirstMagic d tpl.dtbo 64 ∨
      tpl.ds < 68 ∧ ∃ shift, FirstMagic d tpl.dtbo (64 + shift) ∧
        slice d (tpl.dtbo + shift : Nat) (tpl.dtbo + shift + tpl.ds : Nat) =
          slice d tpl.dtbo (tpl.dtbo + tpl.ds : Nat) := by
  obtain ⟨_, _, _, sameFrags, built, sized⟩ := repack_eq_ok_iff.mp passed
  rw [frags] at sameFrags
  cases sameFrags
  obtain ⟨_, _, dStart, found, rfl⟩ := buildImage_eq_ok_iff.mp built
  obtain ⟨shift, rfl, magic⟩ := findDtb_firstMagic found
  rw [← (rd_eq_ok read).1]
  have emptySlice (data : Bytes) (start : Nat) : slice data start (start + 0 : Nat) = [] := by
    rw [slice_natCast]
    simp
  by_cases empty : tpl.ds = 0
  · rw [empty]
    simp only [emptySlice, true_iff]
    exact .inr ⟨by decide, shift, magic, trivial⟩
  · have dtbBehind := le_align tpl.ds
    have tables := (template_bounds read frags).1
    have page := page_of_section read frags (by omega)
    have whole : (pageImage tpl).length = partSize := by
      rw [length_pageImage, page, Nat.min_self, Nat.add_sub_cancel' page_le_partSize]
    have inside := newDtbo_inside whole sized
    have long := copy_long read frags found (by omega)
    constructor
    · intro same
      rcases Nat.eq_zero_or_pos shift with unshifted | shifted
      · subst unshifted
        exact .inl magic
      · have short : (dtbCopy tpl (tpl.dtbo + shift)).length < 68 := by
          by_contra enough
          exact shifted_dtb_differs inside magic shifted (by omega) same
        have full : (dtbCopy tpl (tpl.dtbo + shift)).length = tpl.ds := by omega
        rw [slice_whole_dtb inside full] at same
        exact .inr ⟨by omega, shift, magic, same⟩
    · rintro (atStart | ⟨short, other, otherMagic, repeats⟩)
      · have unshifted := atStart.unique magic
        obtain rfl : shift = 0 := by omega
        have entry := (template_bounds read frags).2.1
        have full : (dtbCopy tpl (tpl.dtbo + 0)).length = tpl.ds := by
          rw [length_dtbCopy]
          omega
        exact slice_whole_dtb inside full
      · have position := otherMagic.unique magic
        obtain rfl : other = shift := by omega
        have copied := length_dtbCopy tpl (tpl.dtbo + other)
        have full : (dtbCopy tpl (tpl.dtbo + other)).length = tpl.ds := by omega
        rw [slice_whole_dtb inside full]
        exact repeats

/-- A DTB that is one blob behind 64 bytes is copied as it is. -/
theorem repacked_dtb_kept_one_entry :
    ∃ out, repack oneEntryLayout.image [1, 2, 3] = .ok out ∧
      slice out (newDtbo oneEntryLayout.image 4 : Nat)
          (newDtbo oneEntryLayout.image 4 + oneEntryLayout.image.ds : Nat) =
        slice oneEntryLayout.encode oneEntryLayout.image.dtbo
          (oneEntryLayout.image.dtbo + oneEntryLayout.image.ds : Nat) := by
  obtain ⟨shift, start, magic⟩ := findDtb_firstMagic oneEntryLayout_found
  obtain rfl : shift = 0 := by
    change oneEntryLayout.dtbo + 0 = oneEntryLayout.dtbo + shift at start
    omega
  have kept := repacked_dtb_kept_iff oneEntryLayout.rd_encode (stockLayout_frags _ _ _ _ _ _)
    oneEntryLayout_repacked
  simp only [List.length_cons, List.length_nil, Nat.reduceAdd] at kept
  have raw : oneEntryLayout.image.raw = oneEntryLayout.encode := rfl
  rw [raw, Nat.add_zero] at magic
  exact ⟨_, oneEntryLayout_repacked, kept.mpr (.inl magic)⟩

/-- A 32-bit field of a device tree table. -/
def be32 (value : Nat) : Bytes := (le32 value).reverse

/-- A device tree table with two entries: the blobs begin behind its header and
both entries, at offsets 96 and 116. -/
def twoEntryDtb : Bytes :=
  [0xd7b7ab1e, 136, 32, 32, 2, 32, 2048, 0].flatMap be32 ++
    [20, 96, 0, 0, 0, 0, 0, 0].flatMap be32 ++ [20, 116, 0, 0, 0, 0, 0, 0].flatMap be32 ++
    fdtMagic ++ List.replicate 16 0 ++ fdtMagic ++ List.replicate 16 0

theorem twoEntryDtb_sizes : twoEntryDtb.length < 2 ^ 32 ∧ 0 < 2 ^ 32 := by decide +kernel

def twoEntryLayout : Layout :=
  stockLayout "recovery" twoEntryDtb 0 [] recoveryName_short twoEntryDtb_sizes

/-- The tool copies such a table from its first entry on, without its header. -/
theorem repacked_dtb_changed_two_entries :
    ∃ out, rd twoEntryLayout.encode = .ok twoEntryLayout.image ∧
      repack twoEntryLayout.image [1, 2, 3] = .ok out ∧
      slice out (newDtbo twoEntryLayout.image 4 : Nat)
          (newDtbo twoEntryLayout.image 4 + twoEntryLayout.image.ds : Nat) ≠
        slice twoEntryLayout.encode twoEntryLayout.image.dtbo
          (twoEntryLayout.image.dtbo + twoEntryLayout.image.ds : Nat) := by
  have found : findMagic twoEntryDtb 0 256 = some (64 + 32) := by decide +kernel
  have placed : Placed twoEntryLayout.image [0xf0] [1, 2, 3] (twoEntryLayout.dtbo + 32) :=
    stockLayout_placed "recovery" twoEntryDtb 0 [] _ _ [1, 2, 3] 32 (by decide +kernel)
      (by decide +kernel) (by decide)
  refine ⟨_, twoEntryLayout.rd_encode, stockLayout_repacked "recovery" twoEntryDtb 0 [] _ _
    [1, 2, 3] 32 (by decide +kernel) (by decide +kernel) (by decide) found, fun same => ?_⟩
  have size : twoEntryLayout.image.ds = 136 := by decide +kernel
  have copy := placed.slice_dtb
  simp only [List.length_cons, List.length_nil, Nat.reduceAdd] at copy
  have repeated := copy.symm.trans same
  -- The header begins with the magic of the table, the entry behind it with a small size.
  have differ : slice twoEntryLayout.dtb 32 33 ≠ slice twoEntryLayout.dtb 0 1 := by
    decide +kernel
  apply differ
  have entryByte := twoEntryLayout.slice_dtb 32 33 (by decide +kernel)
  have headerByte := twoEntryLayout.slice_dtb 0 1 (by decide +kernel)
  have repeatedByte := congrArg (fun bytes => slice bytes (0 : Nat) (1 : Nat)) repeated
  rw [dtbCopy, size, slice_slice _ (twoEntryLayout.dtbo + 32) _ 0 1 (by omega),
    slice_slice _ twoEntryLayout.image.dtbo _ 0 1 (by omega)] at repeatedByte
  exact entryByte.symm.trans (repeatedByte.trans headerByte)

end DashTwrp.VendorBoot
