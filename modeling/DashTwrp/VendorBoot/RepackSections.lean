import DashTwrp.VendorBoot.RepackImage

namespace DashTwrp.VendorBoot

open DashTwrp.Python

/-! The sections a repacked image advertises.  The header is the template's, and
with it the number of table entries and the size of the bootconfig, but the tool
writes two fragments and no bootconfig. -/

/-- A template with its bootconfig section behind the page-aligned table. -/
structure BootLayout extends Layout where
  tableGap : Bytes
  bootconfig : Bytes
  unused : Bytes
  tableGap_length : tableGap.length = align toLayout.table.length pageSize - toLayout.table.length
  trailing_eq : trailing = tableGap ++ bootconfig ++ unused
  bootconfig_field : unpackU32 header 2124 = some bootconfig.length

/-- The sections of `out` that the header advertises. -/
structure Advertised (layout : BootLayout) (rsz : Nat) (out : Bytes) : Prop where
  table : newTblo layout.image rsz + layout.fragments.length * layout.entrySize ≤ out.length
  fragments : ∃ image, rd out = .ok image ∧ image.frags.length = layout.fragments.length ∧
    ∀ index, index ≠ 1 →
      image.frags[index]?.map Fragment.payload =
        layout.fragments[index]?.map TableFragment.payload
  bootconfig :
    slice out
      (newTblo layout.image rsz +
        align (layout.fragments.length * layout.entrySize) pageSize : Nat)
      (newTblo layout.image rsz + align (layout.fragments.length * layout.entrySize) pageSize +
        layout.bootconfig.length : Nat) = layout.bootconfig

/-- The template's bootconfig is where its header says. -/
theorem BootLayout.slice_bootconfig (layout : BootLayout) :
    slice layout.encode
      (layout.tblo + align (layout.fragments.length * layout.entrySize) pageSize : Nat)
      (layout.tblo + align (layout.fragments.length * layout.entrySize) pageSize +
        layout.bootconfig.length : Nat) = layout.bootconfig := by
  have gap := layout.tableGap_length
  have tableEnd := le_align layout.table.length
  have split : layout.encode = layout.header ++ layout.headerGap ++ layout.ramdisk ++
      layout.ramdiskGap ++ layout.dtb ++ layout.dtbGap ++ (layout.table ++ layout.tableGap) ++
        layout.bootconfig ++ layout.unused := by
    rw [Layout.encode, layout.trailing_eq]
    simp
  have start : layout.tblo + align (layout.fragments.length * layout.entrySize) pageSize =
      (layout.header ++ layout.headerGap ++ layout.ramdisk ++ layout.ramdiskGap ++ layout.dtb ++
        layout.dtbGap ++ (layout.table ++ layout.tableGap)).length := by
    rw [List.length_append, layout.length_dtb_front, List.length_append, ← layout.length_table]
    omega
  rw [split]
  exact slice_middle _ _ _ _ _ start (by rw [start])

section Whole

variable {layout : Layout} {f0 f1New : Bytes} {dStart : Nat}

/-- A template that holds its whole table lacks little of the DTB slice. -/
theorem Layout.shortage (found : findDtb layout.image = some dStart)
    (two : 2 ≤ layout.fragments.length) :
    layout.dtb.length ≤ (dtbCopy layout.image dStart).length ∨
      align layout.dtb.length pageSize + (layout.entrySize + layout.entrySize) ≤
        (dtbCopy layout.image dStart).length + 191 := by
  have ends := layout.length_encode
  have tableLength := layout.length_table
  have twoEntries := Nat.mul_le_mul_right layout.entrySize two
  have tables : layout.tblo = layout.dtbo + align layout.dtb.length pageSize := rfl
  obtain ⟨_, upper, _⟩ := findDtb_eq_some found
  have copied : (dtbCopy layout.image dStart).length =
      min (dStart + layout.dtb.length) layout.encode.length - dStart := length_dtbCopy _ _
  change dStart + 64 < layout.dtbo + 256 at upper
  omega

/-- When the table fits, the size assertion passes only with a whole DTB. -/
theorem Layout.placed_of_fits (found : findDtb layout.image = some dStart)
    (two : 2 ≤ layout.fragments.length)
    (fits : newTblo layout.image (f0.length + f1New.length) +
      (layout.entrySize + layout.entrySize) ≤ partSize)
    (same : (tableImage layout.image f0 f1New dStart).length = partSize) :
    Placed layout.image f0 f1New dStart := by
  refine ⟨layout.length_image_p0, layout.entry_long, fits, ?_⟩
  by_contra cut
  have missing := layout.shortage found two
  have long := layout.entry_long
  have start := (findDtb_eq_some found).2.2.1
  have copied := length_dtbCopy layout.image dStart
  have fragmentsEnd := fragments_le_newDtbo layout.image (f0.length + f1New.length)
  have dtbEnd := dtb_le_newTblo layout.image (f0.length + f1New.length)
  have upper := le_align layout.dtb.length
  have room : newTblo layout.image (f0.length + f1New.length) + 4096 ≤ partSize := by
    have tablePage := newTblo_page layout.image (f0.length + f1New.length)
    have partPage := partSize_mod
    unfold pageSize at tablePage partPage
    omega
  have pageLength : (pageImage layout.image).length = partSize := by
    rw [length_pageImage, layout.length_image_p0, Nat.min_self,
      Nat.add_sub_cancel' page_le_partSize]
  have unmoved : (fragmentImage layout.image f0 f1New).length = partSize := by
    rw [(length_fragmentImage _ _ _).2 (by omega), pageLength, Nat.max_eq_left (by omega)]
  have size : layout.image.ds = layout.dtb.length := rfl
  have width : layout.image.es = layout.entrySize := rfl
  have short : (dtbCopy layout.image dStart).length < layout.dtb.length := by
    change ¬ dStart + layout.dtb.length ≤ layout.encode.length at cut
    change dStart + 64 < layout.encode.length at start
    change _ = min (dStart + layout.dtb.length) layout.encode.length - dStart at copied
    omega
  have dtbLength := length_dtbImage layout.image f0 f1New dStart
  have firstLength := length_firstEntryImage layout.image f0 f1New dStart
  rw [length_tableImage, width, Nat.max_eq_left long] at same
  rw [width, Nat.max_eq_left long] at firstLength
  rw [unmoved, size] at dtbLength
  rw [size] at dtbEnd
  -- What follows is about the lengths only.
  clear copied start unmoved pageLength cut
  generalize (firstEntryImage layout.image f0 f1New dStart).length = entry at *
  generalize (dtbImage layout.image f0 f1New dStart).length = dtb at *
  generalize (dtbCopy layout.image dStart).length = copy at *
  generalize partSize = total at *
  have dtbCut : dtb < total ∧ newTblo layout.image (f0.length + f1New.length) +
      (layout.entrySize + layout.entrySize) ≤ dtb := by omega
  omega

end Whole

section Sections

variable {layout : BootLayout} {f0 f1New out : Bytes} {dStart : Nat}

/-- The bootconfig section of an image whose table fits is zero as far as it
lies in the partition. -/
theorem Placed.slice_bootconfig (placed : Placed layout.image f0 f1New dStart) (size start : Nat)
    (behind : newTblo layout.image (f0.length + f1New.length) +
      (layout.entrySize + layout.entrySize) ≤ start) :
    slice (tableImage layout.image f0 f1New dStart) start (start + size : Nat) =
      List.replicate (min (start + size) partSize - start) 0 := by
  have headed : 1 ≤ layout.image.hs := Nat.le_trans (by decide) layout.header_long
  have zeros := slice_replicate (tableImage layout.image f0 f1New dStart) 0
    (newTblo layout.image (f0.length + f1New.length) + (layout.entrySize + layout.entrySize))
    start (start + size) (fun index behind inside => placed.zero_behind index behind headed inside)
    behind
  rw [placed.length_table] at zeros
  exact zeros

/-- Zeros that may be cut off are a section exactly when it is empty, or lies
inside the partition and is zero. -/
theorem replicate_eq_section_iff (bootconfig : Bytes) (start total : Nat) :
    List.replicate (min (start + bootconfig.length) total - start) 0 = bootconfig ↔
      bootconfig = [] ∨
        start + bootconfig.length ≤ total ∧ ∀ byte ∈ bootconfig, byte = 0 := by
  constructor
  · intro same
    have lengths := congrArg List.length same
    rw [List.length_replicate] at lengths
    rcases Nat.eq_zero_or_pos bootconfig.length with empty | nonempty
    · exact .inl (List.length_eq_zero_iff.mp empty)
    · refine .inr ⟨by omega, fun byte member => ?_⟩
      rw [← same] at member
      exact (List.mem_replicate.mp member).2
  · rintro (rfl | ⟨inside, zero⟩)
    · have none : min (start + ([] : Bytes).length) total - start = 0 := by
        rw [List.length_nil]
        omega
      rw [none]
      rfl
    · rw [Nat.min_eq_left inside, Nat.add_sub_cancel_left]
      exact (List.eq_replicate_iff.mpr ⟨rfl, zero⟩).symm

/-- The fragments behind the second are lost, so an image advertises them rightly
exactly when they are empty. -/
theorem blank_payloads_iff (count : Nat) (rest : List TableFragment) (enough : count = rest.length)
    (front : List Fragment) (first second : TableFragment)
    (two : front.map Fragment.payload = [first.payload, f1New]) :
    (∀ index, index ≠ 1 →
      (front ++ List.replicate count blankFragment)[index]?.map Fragment.payload =
        (first :: second :: rest)[index]?.map TableFragment.payload) ↔
      ∀ fragment ∈ rest, fragment.payload = [] := by
  have width : front.length = 2 := by
    rw [← List.length_map (f := Fragment.payload), two]
    rfl
  have head : front[0]?.map Fragment.payload = some first.payload := by
    rw [← List.getElem?_map, two]
    rfl
  have behind (index : Nat) :
      (front ++ List.replicate count blankFragment)[index + 2]?.map Fragment.payload =
        (List.replicate count blankFragment)[index]?.map Fragment.payload := by
    rw [List.getElem?_append_right (by omega), width, Nat.add_sub_cancel]
  constructor
  · intro same fragment member
    obtain ⟨index, inside, rfl⟩ := List.mem_iff_getElem.mp member
    have blank := same (index + 2) (by omega)
    rw [behind, List.getElem?_replicate, if_pos (by omega), List.getElem?_cons_succ,
      List.getElem?_cons_succ, List.getElem?_eq_getElem inside] at blank
    exact (Option.some.inj blank).symm
  · intro empty index other
    match index with
    | 0 =>
        rw [List.getElem?_append_left (by omega), head]
        rfl
    | 1 => exact absurd rfl other
    | index + 2 =>
        rw [behind, List.getElem?_replicate, List.getElem?_cons_succ, List.getElem?_cons_succ]
        by_cases inside : index < rest.length
        · rw [if_pos (by omega), List.getElem?_eq_getElem inside, Option.map_some, Option.map_some,
            empty _ (List.getElem_mem inside)]
          rfl
        · rw [if_neg (by omega), List.getElem?_eq_none (by omega)]
          rfl

/-- An image the tool accepts holds what its header advertises exactly when the
template has nothing to lose: only empty fragments behind the second, and a
bootconfig of zeros, with the table and the bootconfig inside the partition. -/
theorem repacked_sections_advertised_iff {first second : TableFragment}
    {rest : List TableFragment} (split : layout.fragments = first :: second :: rest)
    (passed : repack layout.image f1New = .ok out) :
    Advertised layout (first.payload.length + f1New.length) out ↔
      newTblo layout.image (first.payload.length + f1New.length) +
          layout.fragments.length * layout.entrySize ≤ partSize ∧
        (∀ fragment ∈ rest, fragment.payload = []) ∧
        (layout.bootconfig = [] ∨
          newTblo layout.image (first.payload.length + f1New.length) +
              align (layout.fragments.length * layout.entrySize) pageSize +
              layout.bootconfig.length ≤ partSize ∧
            ∀ byte ∈ layout.bootconfig, byte = 0) := by
  have frags : layout.image.frags = first.seen 0 :: second.seen (0 + first.payload.length) ::
      seenFrom (0 + first.payload.length + second.payload.length) rest := by
    change seenFrom 0 layout.fragments = _
    rw [split]
    rfl
  obtain ⟨_, _, _, sameFrags, built, total⟩ := repack_eq_ok_iff.mp passed
  rw [frags] at sameFrags
  cases sameFrags
  obtain ⟨bound, _, dStart, found, rfl⟩ := buildImage_eq_ok_iff.mp built
  change (tableImage layout.image first.payload f1New dStart).length = partSize at total
  change Advertised layout _ (tableImage layout.image first.payload f1New dStart) ↔ _
  have count : layout.fragments.length = rest.length + 2 := by rw [split]; rfl
  have entries : layout.image.ec = rest.length + 2 := count
  have twoEntries : layout.entrySize + layout.entrySize ≤
      layout.fragments.length * layout.entrySize := by
    rw [count, Nat.add_mul]
    omega
  have tableEnd := le_align (layout.fragments.length * layout.entrySize)
  have headed : 1 ≤ layout.image.hs := Nat.le_trans (by decide) layout.header_long
  -- Both sides say that the table fits, and then every write is in place.
  have settled (fits : newTblo layout.image (first.payload.length + f1New.length) +
      layout.fragments.length * layout.entrySize ≤ partSize) :
      Placed layout.image first.payload f1New dStart :=
    layout.placed_of_fits found (by omega) (by omega) total
  have readBack (fits : newTblo layout.image (first.payload.length + f1New.length) +
      layout.fragments.length * layout.entrySize ≤ partSize) :
      ∃ image, rd (tableImage layout.image first.payload f1New dStart) = .ok image ∧
        image.frags =
          [{ sz := first.payload.length, off := 0, typ := 1, name := "", payload := first.payload },
            { sz := f1New.length, off := first.payload.length, typ := 2, name := "",
              payload := f1New }] ++ List.replicate rest.length blankFragment := by
    obtain ⟨read, image, whole⟩ :=
      (settled fits).rd_tableImage layout.rd_encode headed bound entries
    have all := whole (by rw [Nat.add_comm 2, ← count]; exact fits)
    subst all
    exact ⟨_, image, rfl⟩
  constructor
  · intro advertised
    have fits := advertised.table
    rw [total] at fits
    obtain ⟨image, read, fragments⟩ := readBack fits
    obtain ⟨other, otherRead, _, payloads⟩ := advertised.fragments
    rw [read] at otherRead
    cases otherRead
    rw [split, fragments] at payloads
    have zeros := advertised.bootconfig
    rw [(settled fits).slice_bootconfig _ _ (by omega)] at zeros
    exact ⟨fits, (blank_payloads_iff _ rest rfl _ first second rfl).mp payloads,
      (replicate_eq_section_iff _ _ _).mp zeros⟩
  · rintro ⟨fits, empty, zeros⟩
    obtain ⟨image, read, fragments⟩ := readBack fits
    refine ⟨by rw [total]; exact fits, ⟨image, read, ?_, ?_⟩, ?_⟩
    · rw [fragments, count]
      simp
    · rw [split, fragments]
      exact (blank_payloads_iff _ rest rfl _ first second rfl).mpr empty
    · rw [(settled fits).slice_bootconfig _ _ (by omega)]
      exact (replicate_eq_section_iff _ _ _).mpr zeros

end Sections

section Templates

theorem bootLayout_sizes (bootconfig : Bytes) (small : bootconfig.length < 2 ^ 32) :
    oneEntryDtb.length < 2 ^ 32 ∧ bootconfig.length < 2 ^ 32 :=
  ⟨oneEntryDtb_small, small⟩

/-- A stock template with a bootconfig. -/
def bootLayout (bootconfig : Bytes) (small : bootconfig.length < 2 ^ 32) : BootLayout where
  toLayout := stockLayout "recovery" oneEntryDtb bootconfig.length
    (List.replicate 3880 0 ++ bootconfig) recoveryName_short (bootLayout_sizes bootconfig small)
  tableGap := List.replicate 3880 0
  bootconfig := bootconfig
  unused := []
  tableGap_length := by
    have table : (stockLayout "recovery" oneEntryDtb bootconfig.length
        (List.replicate 3880 0 ++ bootconfig) recoveryName_short
        (bootLayout_sizes bootconfig small)).table.length = 2 * 108 := Layout.length_table _
    rw [table, List.length_replicate]
    decide
  trailing_eq := (List.append_nil _).symm
  bootconfig_field := (headerOf_fields 2 oneEntryDtb.length 2 108 bootconfig.length (by decide)
    oneEntryDtb_small (by decide) (by decide) small).2.2.2.2.2

variable (bootconfig : Bytes) (small : bootconfig.length < 2 ^ 32)

theorem bootLayout_repacked :
    repack (bootLayout bootconfig small).image [1, 2, 3] =
      .ok (tableImage (bootLayout bootconfig small).image [0xf0] [1, 2, 3]
        ((bootLayout bootconfig small).dtbo + 0)) :=
  stockLayout_repacked "recovery" oneEntryDtb bootconfig.length
    (List.replicate 3880 0 ++ bootconfig) recoveryName_short (bootLayout_sizes bootconfig small)
    [1, 2, 3] 0 (by decide) (by decide) (by decide) (by decide)

theorem bootLayout_placed :
    Placed (bootLayout bootconfig small).image [0xf0] [1, 2, 3]
      ((bootLayout bootconfig small).dtbo + 0) :=
  stockLayout_placed "recovery" oneEntryDtb bootconfig.length
    (List.replicate 3880 0 ++ bootconfig) recoveryName_short (bootLayout_sizes bootconfig small)
    [1, 2, 3] 0 (by decide) (by decide) (by decide)

theorem bootLayout_fits :
    newTblo (bootLayout bootconfig small).image 4 +
      (bootLayout bootconfig small).fragments.length * (bootLayout bootconfig small).entrySize ≤
        partSize := by
  have fits := (bootLayout_placed bootconfig small).fits
  simp only [List.length_cons, List.length_nil, Nat.reduceAdd] at fits
  exact fits

theorem bootLayout_slice_bootconfig (size : Nat) :
    slice (tableImage (bootLayout bootconfig small).image [0xf0] [1, 2, 3]
        ((bootLayout bootconfig small).dtbo + 0))
      (newTblo (bootLayout bootconfig small).image 4 +
        align ((bootLayout bootconfig small).fragments.length *
          (bootLayout bootconfig small).entrySize) pageSize : Nat)
      (newTblo (bootLayout bootconfig small).image 4 +
        align ((bootLayout bootconfig small).fragments.length *
          (bootLayout bootconfig small).entrySize) pageSize + size : Nat) =
      List.replicate (min (newTblo (bootLayout bootconfig small).image 4 +
        align ((bootLayout bootconfig small).fragments.length *
          (bootLayout bootconfig small).entrySize) pageSize + size) partSize -
        (newTblo (bootLayout bootconfig small).image 4 +
          align ((bootLayout bootconfig small).fragments.length *
            (bootLayout bootconfig small).entrySize) pageSize)) 0 := by
  have entries : (bootLayout bootconfig small).entrySize +
      (bootLayout bootconfig small).entrySize ≤
        align ((bootLayout bootconfig small).fragments.length *
          (bootLayout bootconfig small).entrySize) pageSize :=
    show 108 + 108 ≤ align (2 * 108) pageSize by decide
  apply (bootLayout_placed bootconfig small).slice_bootconfig
  simp only [List.length_cons, List.length_nil, Nat.reduceAdd]
  omega

theorem repacked_sections_advertised_no_bootconfig :
    ∃ out, repack (bootLayout [] (by decide)).image [1, 2, 3] = .ok out ∧
      Advertised (bootLayout [] (by decide)) 4 out := by
  have fragments : (bootLayout [] (by decide)).fragments =
    platformFragment :: recoveryFragment "recovery" :: [] := rfl
  have advertised := repacked_sections_advertised_iff fragments
    (bootLayout_repacked [] (by decide))
  have payload : platformFragment.payload.length + ([1, 2, 3] : Bytes).length = 4 := rfl
  rw [payload] at advertised
  exact ⟨_, bootLayout_repacked [] (by decide), advertised.mpr
    ⟨bootLayout_fits [] (by decide), fun _ member => absurd member List.not_mem_nil, .inl rfl⟩⟩

/-- The bootconfig of a template with one is gone. -/
theorem repacked_sections_missing_bootconfig :
    ∃ out, rd (bootLayout [0x61] (by decide)).encode =
        .ok (bootLayout [0x61] (by decide)).image ∧
      repack (bootLayout [0x61] (by decide)).image [1, 2, 3] = .ok out ∧
      ¬ Advertised (bootLayout [0x61] (by decide)) 4 out := by
  refine ⟨_, Layout.rd_encode _, bootLayout_repacked [0x61] (by decide), fun advertised => ?_⟩
  have zeros := advertised.bootconfig
  rw [bootLayout_slice_bootconfig] at zeros
  rcases (replicate_eq_section_iff _ _ _).mp zeros with empty | ⟨_, zero⟩
  · cases empty
  · exact absurd (zero 0x61 List.mem_cons_self) (by decide)

end Templates

end DashTwrp.VendorBoot
