import DashTwrp.VendorBoot.Stages

namespace DashTwrp.VendorBoot

open DashTwrp.Python

/-! The image when every write of the repack tool lands in place: what is read
back from each section, and that nothing else has been written. -/

/-- Every section ends inside the partition and the DTB slice is not cut short. -/
structure Placed (tpl : Image) (f0 f1New : Bytes) (dStart : Nat) : Prop where
  page : tpl.p0.length = pageSize
  entry_long : 44 ≤ tpl.es
  fits : newTblo tpl (f0.length + f1New.length) + (tpl.es + tpl.es) ≤ partSize
  whole : dStart + tpl.ds ≤ tpl.raw.length

namespace Placed

variable {tpl : Image} {f0 f1New : Bytes} {dStart : Nat}
variable (placed : Placed tpl f0 f1New dStart)

include placed

/-- The sections follow one another and end inside the partition. -/
theorem order :
    align tpl.hs pageSize + (f0.length + f1New.length) ≤
        newDtbo tpl (f0.length + f1New.length) ∧
      newDtbo tpl (f0.length + f1New.length) + tpl.ds ≤ newTblo tpl (f0.length + f1New.length) ∧
      newTblo tpl (f0.length + f1New.length) + (tpl.es + tpl.es) ≤ partSize :=
  ⟨fragments_le_newDtbo _ _, dtb_le_newTblo _ _, placed.fits⟩

theorem length_page : (pageImage tpl).length = partSize := by
  rw [length_pageImage, placed.page, partSize_pages, pageSize_eq]
  omega

theorem length_fragments : (fragmentImage tpl f0 f1New).length = partSize := by
  obtain ⟨fragmentsEnd, dtbEnd, tableEnd⟩ := placed.order
  rw [(length_fragmentImage _ _ _).2 (by rw [placed.length_page]; omega), placed.length_page]
  omega

theorem length_copy : (dtbCopy tpl dStart).length = tpl.ds := by
  rw [length_dtbCopy, Nat.min_eq_left placed.whole]
  omega

theorem length_dtb : (dtbImage tpl f0 f1New dStart).length = partSize := by
  obtain ⟨fragmentsEnd, dtbEnd, tableEnd⟩ := placed.order
  rw [length_dtbImage, placed.length_fragments, placed.length_copy]
  omega

theorem length_firstEntry : (firstEntryImage tpl f0 f1New dStart).length = partSize := by
  obtain ⟨fragmentsEnd, dtbEnd, tableEnd⟩ := placed.order
  rw [length_firstEntryImage, placed.length_dtb, Nat.max_eq_left placed.entry_long]
  omega

theorem length_table : (tableImage tpl f0 f1New dStart).length = partSize := by
  obtain ⟨fragmentsEnd, dtbEnd, tableEnd⟩ := placed.order
  rw [length_tableImage, placed.length_firstEntry, Nat.max_eq_left placed.entry_long]
  omega

theorem length_entry (size off typ : Nat) : (entryBytes tpl.es size off typ).length = tpl.es := by
  rw [length_entryBytes, Nat.max_eq_left placed.entry_long]

/-- The windows the writes touch, last write first. -/
theorem second_entry_outside :
    SameOutside (newTblo tpl (f0.length + f1New.length) + tpl.es)
      (newTblo tpl (f0.length + f1New.length) + tpl.es + tpl.es)
      (tableImage tpl f0 f1New dStart) (firstEntryImage tpl f0 f1New dStart) := by
  have outside := assign_sameOutside (firstEntryImage tpl f0 f1New dStart)
    (newTblo tpl (f0.length + f1New.length) + tpl.es) (entryBytes tpl.es f1New.length f0.length 2)
    (by rw [placed.length_entry, placed.length_firstEntry, Nat.add_assoc]; exact placed.fits)
  rw [placed.length_entry] at outside
  exact outside

theorem first_entry_outside :
    SameOutside (newTblo tpl (f0.length + f1New.length))
      (newTblo tpl (f0.length + f1New.length) + tpl.es)
      (firstEntryImage tpl f0 f1New dStart) (dtbImage tpl f0 f1New dStart) := by
  have fits := placed.fits
  have outside := assign_sameOutside (dtbImage tpl f0 f1New dStart)
    (newTblo tpl (f0.length + f1New.length)) (entryBytes tpl.es f0.length 0 1)
    (by rw [placed.length_entry, placed.length_dtb]; omega)
  rw [placed.length_entry] at outside
  exact outside

theorem table_outside :
    SameOutside (newTblo tpl (f0.length + f1New.length))
      (newTblo tpl (f0.length + f1New.length) + (tpl.es + tpl.es))
      (tableImage tpl f0 f1New dStart) (dtbImage tpl f0 f1New dStart) :=
  (placed.second_entry_outside.widen (by omega) (by omega)).trans
    (placed.first_entry_outside.widen (by omega) (by omega))

theorem dtb_outside :
    SameOutside (newDtbo tpl (f0.length + f1New.length))
      (newDtbo tpl (f0.length + f1New.length) + tpl.ds)
      (dtbImage tpl f0 f1New dStart) (fragmentImage tpl f0 f1New) := by
  obtain ⟨fragmentsEnd, dtbEnd, tableEnd⟩ := placed.order
  have outside := assign_sameOutside (fragmentImage tpl f0 f1New)
    (newDtbo tpl (f0.length + f1New.length)) (dtbCopy tpl dStart)
    (by rw [placed.length_copy, placed.length_fragments]; omega)
  rw [placed.length_copy] at outside
  exact outside

theorem length_sized : (sizedImage tpl f0 f1New).length = partSize := by
  rw [length_sizedImage, placed.length_page]

theorem length_f0 : (f0Image tpl f0 f1New).length = partSize := by
  obtain ⟨fragmentsEnd, dtbEnd, tableEnd⟩ := placed.order
  rw [f0Image, length_assign_full, placed.length_sized, if_pos (by omega)]
  omega

theorem f1_outside :
    SameOutside (align tpl.hs pageSize + f0.length)
      (align tpl.hs pageSize + (f0.length + f1New.length))
      (fragmentImage tpl f0 f1New) (f0Image tpl f0 f1New) := by
  obtain ⟨fragmentsEnd, dtbEnd, tableEnd⟩ := placed.order
  have outside := assign_sameOutside (f0Image tpl f0 f1New)
    (align tpl.hs pageSize + f0.length) f1New (by rw [placed.length_f0]; omega)
  rw [Nat.add_assoc (align tpl.hs pageSize)] at outside
  exact outside

theorem f0_outside :
    SameOutside (align tpl.hs pageSize) (align tpl.hs pageSize + f0.length)
      (f0Image tpl f0 f1New) (sizedImage tpl f0 f1New) := by
  obtain ⟨fragmentsEnd, dtbEnd, tableEnd⟩ := placed.order
  exact assign_sameOutside (sizedImage tpl f0 f1New) (align tpl.hs pageSize) f0
    (by rw [placed.length_sized]; omega)

theorem fragments_outside :
    SameOutside (align tpl.hs pageSize)
      (align tpl.hs pageSize + (f0.length + f1New.length))
      (fragmentImage tpl f0 f1New) (sizedImage tpl f0 f1New) :=
  (placed.f1_outside.widen (by omega) (by omega)).trans
    (placed.f0_outside.widen (by omega) (by omega))

theorem size_outside : SameOutside 24 28 (sizedImage tpl f0 f1New) (pageImage tpl) :=
  assign_sameOutside (pageImage tpl) 24 (le32 (f0.length + f1New.length))
    (by rw [placed.length_page, partSize_pages, pageSize_eq, length_le32]; omega)

/-- Everything from the DTB on is written behind the fragments. -/
theorem behind_outside :
    SameOutside (newDtbo tpl (f0.length + f1New.length)) partSize
      (tableImage tpl f0 f1New dStart) (fragmentImage tpl f0 f1New) := by
  obtain ⟨fragmentsEnd, dtbEnd, tableEnd⟩ := placed.order
  exact (placed.table_outside.widen (by omega) (by omega)).trans
    (placed.dtb_outside.widen (by omega) (by omega))

/-- Everything but the size field is written behind the header. -/
theorem header_outside :
    SameOutside (align tpl.hs pageSize) partSize
      (tableImage tpl f0 f1New dStart) (sizedImage tpl f0 f1New) := by
  obtain ⟨fragmentsEnd, dtbEnd, tableEnd⟩ := placed.order
  exact (placed.behind_outside.widen (by omega) (by omega)).trans
    (placed.fragments_outside.widen (by omega) (by omega))

theorem slice_second_entry :
    slice (tableImage tpl f0 f1New dStart)
      (newTblo tpl (f0.length + f1New.length) + tpl.es : Nat)
      (newTblo tpl (f0.length + f1New.length) + tpl.es + tpl.es : Nat) =
        entryBytes tpl.es f1New.length f0.length 2 := by
  have fits := placed.fits
  have read := slice_assign_self (firstEntryImage tpl f0 f1New dStart)
    (newTblo tpl (f0.length + f1New.length) + tpl.es) (entryBytes tpl.es f1New.length f0.length 2)
    (by rw [placed.length_firstEntry]; omega)
  rw [placed.length_entry] at read
  exact read

theorem slice_first_entry :
    slice (tableImage tpl f0 f1New dStart) (newTblo tpl (f0.length + f1New.length) : Nat)
      (newTblo tpl (f0.length + f1New.length) + tpl.es : Nat) =
        entryBytes tpl.es f0.length 0 1 := by
  have fits := placed.fits
  rw [placed.second_entry_outside.slice_eq _ _ (.inl (Nat.le_refl _))]
  have read := slice_assign_self (dtbImage tpl f0 f1New dStart)
    (newTblo tpl (f0.length + f1New.length)) (entryBytes tpl.es f0.length 0 1)
    (by rw [placed.length_dtb]; omega)
  rw [placed.length_entry] at read
  exact read

theorem slice_dtb :
    slice (tableImage tpl f0 f1New dStart) (newDtbo tpl (f0.length + f1New.length) : Nat)
      (newDtbo tpl (f0.length + f1New.length) + tpl.ds : Nat) = dtbCopy tpl dStart := by
  obtain ⟨fragmentsEnd, dtbEnd, tableEnd⟩ := placed.order
  rw [placed.table_outside.slice_eq _ _ (.inl dtbEnd)]
  have read := slice_assign_self (fragmentImage tpl f0 f1New)
    (newDtbo tpl (f0.length + f1New.length)) (dtbCopy tpl dStart)
    (by rw [placed.length_fragments]; omega)
  rw [placed.length_copy] at read
  exact read

theorem slice_f1 :
    slice (tableImage tpl f0 f1New dStart) (align tpl.hs pageSize + f0.length : Nat)
      (align tpl.hs pageSize + f0.length + f1New.length : Nat) = f1New := by
  obtain ⟨fragmentsEnd, dtbEnd, tableEnd⟩ := placed.order
  rw [placed.behind_outside.slice_eq _ _ (.inl (by omega))]
  have read := slice_assign_self (f0Image tpl f0 f1New) (align tpl.hs pageSize + f0.length) f1New
    (by rw [placed.length_f0]; omega)
  rw [fragmentImage, ← Nat.add_assoc (align tpl.hs pageSize)]
  exact read

theorem slice_f0 :
    slice (tableImage tpl f0 f1New dStart) (align tpl.hs pageSize)
      (align tpl.hs pageSize + f0.length : Nat) = f0 := by
  obtain ⟨fragmentsEnd, dtbEnd, tableEnd⟩ := placed.order
  rw [placed.behind_outside.slice_eq _ _ (.inl (by omega)),
    placed.f1_outside.slice_eq _ _ (.inl (Nat.le_refl _))]
  exact slice_assign_self (sizedImage tpl f0 f1New) (align tpl.hs pageSize) f0
    (by rw [placed.length_sized]; omega)

theorem pageImage_eq : pageImage tpl = tpl.p0 ++ List.replicate (partSize - pageSize) 0 := by
  have written : pageImage tpl = _ := assign_natCast _ 0 pageSize _
  have whole : slice tpl.p0 0 pageSize = tpl.p0 := by
    have read : slice tpl.p0 0 pageSize = _ := slice_natCast tpl.p0 0 pageSize
    rw [read, List.drop_zero, List.take_of_length_le (by rw [placed.page])]
  rw [written, whole, List.take_zero, List.nil_append, List.drop_replicate]
  rfl

/-- Outside page 0 and the sections the image is zero. -/
theorem zero_elsewhere (index : Nat) (behindPage : pageSize ≤ index) (inside : index < partSize)
    (notFragments : index < align tpl.hs pageSize ∨
      align tpl.hs pageSize + (f0.length + f1New.length) ≤ index)
    (notDtb : index < newDtbo tpl (f0.length + f1New.length) ∨
      newDtbo tpl (f0.length + f1New.length) + tpl.ds ≤ index)
    (notTable : index < newTblo tpl (f0.length + f1New.length) ∨
      newTblo tpl (f0.length + f1New.length) + (tpl.es + tpl.es) ≤ index) :
    (tableImage tpl f0 f1New dStart)[index]? = some 0 := by
  rw [placed.table_outside.agree _ notTable, placed.dtb_outside.agree _ notDtb,
    placed.fragments_outside.agree _ notFragments,
    placed.size_outside.agree _ (.inr (by unfold pageSize at behindPage; omega)),
    placed.pageImage_eq, List.getElem?_append_right (by rw [placed.page]; exact behindPage),
    placed.page, List.getElem?_replicate, if_pos (by omega)]

variable (headed : 1 ≤ tpl.hs)

include headed

theorem size_field : unpackU32 (tableImage tpl f0 f1New dStart) 24 =
    unpackU32 (sizedImage tpl f0 f1New) 24 := by
  have front := page_le_align headed
  rw [unpackU32_congr placed.header_outside 24 (.inl (by unfold pageSize at *; omega))]

theorem slice_page : slice (tableImage tpl f0 f1New dStart) 0 pageSize =
    slice (sizedImage tpl f0 f1New) 0 pageSize :=
  placed.header_outside.slice_eq 0 pageSize (.inl (page_le_align headed))

/-- Page 0 keeps everything but `vendor_ramdisk_size`. -/
theorem page_outside :
    SameOutside 24 28 (slice (tableImage tpl f0 f1New dStart) 0 pageSize) tpl.p0 := by
  have pageSlice : slice (pageImage tpl) 0 pageSize = tpl.p0 := by
    rw [placed.pageImage_eq]
    exact slice_middle [] tpl.p0 _ 0 pageSize rfl (by rw [placed.page]; rfl)
  rw [placed.slice_page headed, ← pageSlice]
  constructor
  · have left := length_slice (sizedImage tpl f0 f1New) 0 pageSize
    have right := length_slice (pageImage tpl) 0 pageSize
    rw [length_sizedImage] at left
    exact left.trans right.symm
  · intro index outside
    have left := getElem?_slice (sizedImage tpl f0 f1New) 0 pageSize index
    have right := getElem?_slice (pageImage tpl) 0 pageSize index
    rw [placed.size_outside.agree _ (by omega)] at left
    exact left.trans right.symm

end Placed

end DashTwrp.VendorBoot
