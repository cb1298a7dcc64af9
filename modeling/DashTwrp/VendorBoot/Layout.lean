import DashTwrp.VendorBoot.Reader

namespace DashTwrp.VendorBoot

open DashTwrp.Python

/-! Well-formed vendor_boot v4 images, and that both readers return the
fragments they were laid out with. -/

/-- A fragment with the identity its table entry gives it. -/
structure TableFragment where
  typ : UInt32
  name : String
  boardId : Bytes
  payload : Bytes

namespace TableFragment

/-- The name, padded with NUL bytes. -/
def nameField (fragment : TableFragment) : Bytes :=
  encodeUtf8 fragment.name ++ List.replicate (32 - (encodeUtf8 fragment.name).length) 0

/-- The table entry of a fragment at `off` in the ramdisk section. -/
def entry (fragment : TableFragment) (off : Nat) : Bytes :=
  le32 fragment.payload.length ++ le32 off ++ le32 fragment.typ.toNat ++ fragment.nameField ++
    fragment.boardId

end TableFragment

def ramdiskOf (fragments : List TableFragment) : Bytes :=
  fragments.flatMap TableFragment.payload

/-- The table entries of fragments that follow `off` bytes of the section. -/
def entriesOf (off : Nat) : List TableFragment → List Bytes
  | [] => []
  | fragment :: rest => fragment.entry off :: entriesOf (off + fragment.payload.length) rest

/-- The sections of an image: the header with its fields in place, and behind it
the ramdisk section, the DTB and the table, each on a page boundary. -/
structure Layout where
  header : Bytes
  headerGap : Bytes
  fragments : List TableFragment
  ramdiskGap : Bytes
  dtb : Bytes
  dtbGap : Bytes
  entrySize : Nat
  trailing : Bytes
  header_long : 2128 ≤ header.length
  entry_long : 44 ≤ entrySize
  names_short : ∀ fragment ∈ fragments, (encodeUtf8 fragment.name).length ≤ 32
  entries_sized : ∀ fragment ∈ fragments, 44 + fragment.boardId.length = entrySize
  headerGap_length : headerGap.length = align header.length pageSize - header.length
  ramdiskGap_length : ramdiskGap.length =
    align (ramdiskOf fragments).length pageSize - (ramdiskOf fragments).length
  dtbGap_length : dtbGap.length = align dtb.length pageSize - dtb.length
  ramdisk_field : unpackU32 header 24 = some (ramdiskOf fragments).length
  headerSize_field : unpackU32 header 2096 = some header.length
  dtb_field : unpackU32 header 2100 = some dtb.length
  count_field : unpackU32 header 2116 = some fragments.length
  entrySize_field : unpackU32 header 2120 = some entrySize

namespace Layout

variable (layout : Layout)

def ramdisk : Bytes := ramdiskOf layout.fragments

def table : Bytes := (entriesOf 0 layout.fragments).flatten

def ro : Nat := align layout.header.length pageSize

def dtbo : Nat := layout.ro + align layout.ramdisk.length pageSize

def tblo : Nat := layout.dtbo + align layout.dtb.length pageSize

def encode : Bytes :=
  layout.header ++ layout.headerGap ++ layout.ramdisk ++ layout.ramdiskGap ++ layout.dtb ++
    layout.dtbGap ++ layout.table ++ layout.trailing

theorem length_front : (layout.header ++ layout.headerGap).length = layout.ro := by
  have gap := layout.headerGap_length
  have upper := le_align layout.header.length
  rw [List.length_append, ro]
  omega

theorem length_ramdisk_front :
    (layout.header ++ layout.headerGap ++ layout.ramdisk ++ layout.ramdiskGap).length =
      layout.dtbo := by
  have gap := layout.ramdiskGap_length
  have upper := le_align layout.ramdisk.length
  rw [List.length_append, List.length_append, length_front, dtbo]
  unfold ramdisk at *
  omega

theorem length_dtb_front :
    (layout.header ++ layout.headerGap ++ layout.ramdisk ++ layout.ramdiskGap ++ layout.dtb ++
      layout.dtbGap).length = layout.tblo := by
  have gap := layout.dtbGap_length
  have upper := le_align layout.dtb.length
  rw [List.length_append, List.length_append, length_ramdisk_front, tblo]
  omega

theorem length_encode : layout.encode.length =
    layout.tblo + layout.table.length + layout.trailing.length := by
  rw [encode, List.length_append, List.length_append, length_dtb_front]

theorem ro_mod : layout.ro % pageSize = 0 := align_mod _

theorem dtbo_mod : layout.dtbo % pageSize = 0 := by
  have ramdiskMod := align_mod layout.ramdisk.length
  have roMod := layout.ro_mod
  unfold dtbo pageSize at *
  omega

theorem tblo_mod : layout.tblo % pageSize = 0 := by
  have dtbMod := align_mod layout.dtb.length
  have dtboMod := layout.dtbo_mod
  unfold tblo pageSize at *
  omega

/-- A header field is read from the image as from the header. -/
theorem unpackU32_encode (offset : Nat) (inside : offset + 4 ≤ layout.header.length) :
    unpackU32 layout.encode offset = unpackU32 layout.header offset := by
  have read : slice layout.encode 0 layout.header.length = layout.header := by
    have split : layout.encode = [] ++ layout.header ++ (layout.headerGap ++ layout.ramdisk ++
        layout.ramdiskGap ++ layout.dtb ++ layout.dtbGap ++ layout.table ++ layout.trailing) := by
      simp [encode]
    rw [split]
    exact slice_middle _ _ _ 0 _ rfl (by simp)
  have field := unpackU32_of_slice 0 layout.header.length read offset (by omega)
  rwa [Nat.zero_add] at field

end Layout

theorem TableFragment.length_entry (fragment : TableFragment) (off : Nat)
    (short : (encodeUtf8 fragment.name).length ≤ 32) :
    (fragment.entry off).length = 44 + fragment.boardId.length := by
  simp only [entry, nameField, List.length_append, length_le32, List.length_replicate]
  omega

theorem entriesOf_append (off : Nat) (done pending : List TableFragment) :
    entriesOf off (done ++ pending) =
      entriesOf off done ++ entriesOf (off + (ramdiskOf done).length) pending := by
  induction done generalizing off with
  | nil => simp [entriesOf, ramdiskOf]
  | cons fragment rest ih =>
      rw [List.cons_append, entriesOf, ih, entriesOf]
      simp [ramdiskOf, Nat.add_assoc]

@[simp] theorem length_entriesOf (off : Nat) (fragments : List TableFragment) :
    (entriesOf off fragments).length = fragments.length := by
  induction fragments generalizing off with
  | nil => rfl
  | cons fragment rest ih => simp [entriesOf, ih]

namespace Layout

variable (layout : Layout)

theorem entries_uniform (off : Nat) (fragments : List TableFragment)
    (belong : ∀ fragment ∈ fragments, fragment ∈ layout.fragments) :
    ∀ cell ∈ entriesOf off fragments, cell.length = layout.entrySize := by
  induction fragments generalizing off with
  | nil => simp [entriesOf]
  | cons fragment rest ih =>
      intro cell member
      have mine := belong fragment (by simp)
      rcases List.mem_cons.mp member with rfl | later
      · rw [fragment.length_entry off (layout.names_short fragment mine),
          layout.entries_sized fragment mine]
      · exact ih _ (fun other inside => belong other (by simp [inside])) cell later

theorem length_table : layout.table.length = layout.fragments.length * layout.entrySize := by
  have widths : (entriesOf 0 layout.fragments).map List.length =
      List.replicate layout.fragments.length layout.entrySize := by
    rw [← length_entriesOf 0 layout.fragments]
    exact List.map_eq_replicate_iff.mpr
      (layout.entries_uniform 0 layout.fragments fun _ member => member)
  rw [table, List.length_flatten, widths, List.sum_replicate_nat]

/-- A window of the table section. -/
theorem slice_table (start stop : Nat) (within : stop ≤ layout.table.length) :
    slice layout.encode (layout.tblo + start : Nat) (layout.tblo + stop : Nat) =
      slice layout.table start stop := by
  rw [encode, List.append_assoc, ← layout.length_dtb_front, slice_append_left,
    slice_append_right _ _ _ _ within]

/-- A window of the DTB section. -/
theorem slice_dtb (start stop : Nat) (within : stop ≤ layout.dtb.length) :
    slice layout.encode (layout.dtbo + start : Nat) (layout.dtbo + stop : Nat) =
      slice layout.dtb start stop := by
  have split : layout.encode = layout.header ++ layout.headerGap ++ layout.ramdisk ++
      layout.ramdiskGap ++ (layout.dtb ++ (layout.dtbGap ++ layout.table ++ layout.trailing)) := by
    simp [encode]
  rw [split, ← layout.length_ramdisk_front, slice_append_left,
    slice_append_right _ _ _ _ within]

/-- A window of the ramdisk section. -/
theorem slice_ramdisk (start stop : Nat) (within : stop ≤ layout.ramdisk.length) :
    slice layout.encode (layout.ro + start : Nat) (layout.ro + stop : Nat) =
      slice layout.ramdisk start stop := by
  have split : layout.encode = layout.header ++ layout.headerGap ++ (layout.ramdisk ++
      (layout.ramdiskGap ++ layout.dtb ++ layout.dtbGap ++ layout.table ++ layout.trailing)) := by
    simp [encode]
  rw [split, ← layout.length_front, slice_append_left, slice_append_right _ _ _ _ within]

variable {layout} {done rest : List TableFragment} {fragment : TableFragment}

theorem payload_inside (split : layout.fragments = done ++ fragment :: rest) :
    (ramdiskOf done).length + fragment.payload.length ≤ layout.ramdisk.length := by
  simp only [ramdisk, split, ramdiskOf, List.flatMap_append, List.flatMap_cons,
    List.length_append]
  omega

/-- The payload behind the payloads of the fragments in front. -/
theorem slice_payload (split : layout.fragments = done ++ fragment :: rest) :
    slice layout.encode (layout.ro + (ramdiskOf done).length : Nat)
        (layout.ro + (ramdiskOf done).length + fragment.payload.length : Nat) =
      fragment.payload := by
  rw [Nat.add_assoc, slice_ramdisk _ _ _ (payload_inside split)]
  have sections : layout.ramdisk = ramdiskOf done ++ fragment.payload ++ ramdiskOf rest := by
    simp [ramdisk, split, ramdiskOf]
  rw [sections]
  exact slice_middle _ _ _ _ _ rfl rfl

theorem entry_inside (split : layout.fragments = done ++ fragment :: rest) :
    done.length * layout.entrySize + layout.entrySize ≤ layout.table.length := by
  rw [length_table, split, ← Nat.succ_mul]
  apply Nat.mul_le_mul_right
  simp

/-- The table entry behind the entries of the fragments in front. -/
theorem slice_entry (split : layout.fragments = done ++ fragment :: rest) :
    slice layout.encode (layout.tblo + done.length * layout.entrySize : Nat)
        (layout.tblo + done.length * layout.entrySize + layout.entrySize : Nat) =
      fragment.entry (ramdiskOf done).length := by
  have inside : done.length < (entriesOf 0 layout.fragments).length := by simp [split]
  rw [Nat.add_assoc, slice_table _ _ _ (entry_inside split), table,
    slice_flatten _ _ _ (layout.entries_uniform 0 _ fun _ member => member) inside]
  simp [split, entriesOf_append, entriesOf]

/-- The three numbers of a table entry. -/
theorem entry_numbers (split : layout.fragments = done ++ fragment :: rest) :
    unpackU32 layout.encode (layout.tblo + done.length * layout.entrySize) =
        some fragment.payload.length ∧
      unpackU32 layout.encode (layout.tblo + done.length * layout.entrySize + 4) =
        some (ramdiskOf done).length ∧
      unpackU32 layout.encode (layout.tblo + done.length * layout.entrySize + 8) =
        some fragment.typ.toNat := by
  have ramdiskSmall : layout.ramdisk.length < 2 ^ 32 := unpackU32_lt layout.ramdisk_field
  have payloadInside := payload_inside split
  have entrySlice := slice_entry split
  have long := layout.entry_long
  have field (offset : Nat) (front : offset + 4 ≤ 44) :
      unpackU32 layout.encode (layout.tblo + done.length * layout.entrySize + offset) =
        unpackU32 (fragment.entry (ramdiskOf done).length) offset :=
    unpackU32_of_slice _ _ entrySlice offset (by omega)
  refine ⟨?_, ?_, ?_⟩
  · rw [← Nat.add_zero (layout.tblo + _), field 0 (by omega)]
    have first := unpackU32_middle [] (le32 (ramdiskOf done).length ++ le32 fragment.typ.toNat ++
      fragment.nameField ++ fragment.boardId) fragment.payload.length (by omega)
    simpa [TableFragment.entry] using first
  · rw [field 4 (by omega)]
    have second := unpackU32_middle (le32 fragment.payload.length) (le32 fragment.typ.toNat ++
      fragment.nameField ++ fragment.boardId) (ramdiskOf done).length (by omega)
    simpa [TableFragment.entry] using second
  · rw [field 8 (by omega)]
    have third := unpackU32_middle (le32 fragment.payload.length ++ le32 (ramdiskOf done).length)
      (fragment.nameField ++ fragment.boardId) fragment.typ.toNat fragment.typ.toNat_lt
    simpa [TableFragment.entry] using third

/-- The name field of a table entry. -/
theorem entry_name (split : layout.fragments = done ++ fragment :: rest) :
    slice layout.encode (layout.tblo + done.length * layout.entrySize + 12 : Nat)
        (layout.tblo + done.length * layout.entrySize + 44 : Nat) = fragment.nameField := by
  have short := layout.names_short fragment (by simp [split])
  have long := layout.entry_long
  rw [← slice_slice _ _ (layout.tblo + done.length * layout.entrySize + layout.entrySize) _ _
    (by omega), slice_entry split]
  have sections : fragment.entry (ramdiskOf done).length =
      (le32 fragment.payload.length ++ le32 (ramdiskOf done).length ++ le32 fragment.typ.toNat) ++
        fragment.nameField ++ fragment.boardId := by
    simp [TableFragment.entry]
  rw [sections]
  apply slice_middle
  · simp
  · simp only [TableFragment.nameField, List.length_append, length_le32, List.length_replicate]
    omega

end Layout

/-- What `rd` reports of a fragment at `off` in the ramdisk section. -/
def TableFragment.seen (fragment : TableFragment) (off : Nat) : Fragment where
  sz := fragment.payload.length
  off := off
  typ := fragment.typ.toNat
  name := strippedText fragment.name
  payload := fragment.payload

/-- What `rd` reports of fragments that follow `off` bytes of the section. -/
def seenFrom (off : Nat) : List TableFragment → List Fragment
  | [] => []
  | fragment :: rest => fragment.seen off :: seenFrom (off + fragment.payload.length) rest

theorem payloads_seenFrom (off : Nat) (fragments : List TableFragment) :
    (seenFrom off fragments).map Fragment.payload = fragments.map TableFragment.payload := by
  induction fragments generalizing off with
  | nil => rfl
  | cons fragment rest ih => simp [seenFrom, TableFragment.seen, ih]

theorem length_ramdiskOf_concat (done : List TableFragment) (fragment : TableFragment) :
    (ramdiskOf (done ++ [fragment])).length =
      (ramdiskOf done).length + fragment.payload.length := by
  simp [ramdiskOf]

namespace Layout

variable {layout : Layout} {done rest : List TableFragment} {fragment : TableFragment}

theorem readEntry_encode (split : layout.fragments = done ++ fragment :: rest) :
    readEntry layout.encode layout.ro (layout.tblo + done.length * layout.entrySize) =
      .ok (fragment.seen (ramdiskOf done).length) := by
  obtain ⟨szRead, offRead, typRead⟩ := entry_numbers split
  have payloadInside := payload_inside split
  have ends := layout.length_encode
  have ramdiskEnd := le_align layout.ramdisk.length
  have inside : layout.ro + (ramdiskOf done).length + fragment.payload.length ≤
      layout.encode.length := by
    simp only [tblo, dtbo] at ends
    omega
  rw [readEntry_of_fields szRead offRead typRead
    (by rw [entry_name split]; exact decodeUtf8_rstripNul _ _), guarded_payload inside,
    slice_payload split]
  rfl

/-- The loop of `rd` from the entry behind those of the fragments in front. -/
theorem readFrags_encode (pending : List TableFragment)
    (split : layout.fragments = done ++ pending) :
    readFrags layout.encode layout.ro layout.tblo layout.entrySize done.length pending.length =
      .ok (seenFrom (ramdiskOf done).length pending) := by
  induction pending generalizing done with
  | nil => rfl
  | cons fragment rest ih =>
      have entryInside := entry_inside split
      have ends := layout.length_encode
      have long := layout.entry_long
      have within : ¬ layout.tblo + done.length * layout.entrySize + 12 > layout.encode.length := by
        omega
      have later : readFrags layout.encode layout.ro layout.tblo layout.entrySize
          (done ++ [fragment]).length rest.length = _ := ih (by simp [split])
      rw [List.length_append, List.length_singleton, length_ramdiskOf_concat] at later
      simp only [List.length_cons, readFrags, if_neg within, readEntry_encode split, later, seenFrom]

/-- The loop of `parse` from the entry behind those of the fragments in front. -/
theorem parseFrags_encode (pending : List TableFragment)
    (split : layout.fragments = done ++ pending) :
    parseFrags layout.encode layout.ro layout.tblo layout.entrySize done.length pending.length =
      .ok (pending.map TableFragment.payload) := by
  induction pending generalizing done with
  | nil => rfl
  | cons fragment rest ih =>
      obtain ⟨szRead, offRead, typRead⟩ := entry_numbers split
      have later : parseFrags layout.encode layout.ro layout.tblo layout.entrySize
          (done ++ [fragment]).length rest.length = _ := ih (by simp [split])
      rw [List.length_append, List.length_singleton] at later
      simp only [List.length_cons, parseFrags, szRead, offRead, typRead, later, slice_payload split,
        List.map_cons]

/-- The offsets both readers compute are those of the layout. -/
theorem readers_offsets (layout : Layout) :
    align (align layout.header.length pageSize + layout.ramdisk.length) pageSize = layout.dtbo ∧
      align (layout.dtbo + align layout.dtb.length pageSize) pageSize = layout.tblo :=
  ⟨align_page_add _ layout.ro_mod, align_of_mod layout.tblo_mod⟩

/-- The header fields both readers use. -/
theorem readers_fields (layout : Layout) :
    unpackU32 layout.encode 2096 = some layout.header.length ∧
      unpackU32 layout.encode 2100 = some layout.dtb.length ∧
      unpackU32 layout.encode 2116 = some layout.fragments.length ∧
      unpackU32 layout.encode 2120 = some layout.entrySize ∧
      unpackU32 layout.encode 24 = some layout.ramdisk.length := by
  have long := layout.header_long
  refine ⟨?_, ?_, ?_, ?_, ?_⟩ <;> rw [unpackU32_encode _ _ (by omega)]
  · exact layout.headerSize_field
  · exact layout.dtb_field
  · exact layout.count_field
  · exact layout.entrySize_field
  · exact layout.ramdisk_field

/-- The image `rd` returns for a layout. -/
def image (layout : Layout) : Image where
  raw := layout.encode
  p0 := slice layout.encode 0 pageSize
  hs := layout.header.length
  ds := layout.dtb.length
  rs := layout.ramdisk.length
  ro := layout.ro
  dtbo := layout.dtbo
  tblo := layout.tblo
  ec := layout.fragments.length
  es := layout.entrySize
  frags := seenFrom 0 layout.fragments

theorem rd_encode (layout : Layout) : rd layout.encode = .ok layout.image := by
  obtain ⟨hsRead, dsRead, ecRead, esRead, rsRead⟩ := layout.readers_fields
  obtain ⟨dtboRead, tbloRead⟩ := layout.readers_offsets
  have long := layout.header_long
  have reserved (offset : Nat) (inside : offset + 4 ≤ layout.header.length) :
      ∃ value, unpackU32 layout.encode offset = some value := by
    rw [unpackU32_encode _ _ inside]
    exact unpackU32_isSome inside
  obtain ⟨tableSize, tableSizeRead⟩ := reserved 2112 (by omega)
  obtain ⟨bootconfig, bootconfigRead⟩ := reserved 2124 (by omega)
  have frags : readFrags layout.encode layout.ro layout.tblo layout.entrySize
      ([] : List TableFragment).length layout.fragments.length = _ :=
    readFrags_encode layout.fragments rfl
  have roRead : align layout.header.length pageSize = layout.ro := rfl
  rw [roRead] at dtboRead
  simp only [List.length_nil, ramdiskOf, List.flatMap_nil] at frags
  simp only [rd, hsRead, dsRead, ecRead, esRead, rsRead, tableSizeRead, bootconfigRead, roRead,
    dtboRead, tbloRead, frags]
  rfl

theorem parse_encode (layout : Layout) :
    parse layout.encode = .ok (layout.fragments.map TableFragment.payload) := by
  obtain ⟨hsRead, dsRead, ecRead, esRead, rsRead⟩ := layout.readers_fields
  obtain ⟨dtboRead, tbloRead⟩ := layout.readers_offsets
  have frags : parseFrags layout.encode layout.ro layout.tblo layout.entrySize
      ([] : List TableFragment).length layout.fragments.length = _ :=
    parseFrags_encode layout.fragments rfl
  have roRead : align layout.header.length pageSize = layout.ro := rfl
  rw [roRead] at dtboRead
  rw [List.length_nil] at frags
  simp only [parse, hsRead, dsRead, ecRead, esRead, rsRead, roRead, dtboRead, tbloRead, frags]

/-- Both readers return the fragments of a well-formed image in order, and
`rd` with the size, offset, type and name each was laid out with. -/
theorem readers_agree (layout : Layout) :
    ∃ tpl, rd layout.encode = .ok tpl ∧ tpl.frags = seenFrom 0 layout.fragments ∧
      tpl.frags.map Fragment.payload = layout.fragments.map TableFragment.payload ∧
      parse layout.encode = .ok (layout.fragments.map TableFragment.payload) :=
  ⟨layout.image, layout.rd_encode, rfl, payloads_seenFrom 0 layout.fragments, layout.parse_encode⟩

end Layout

/-- A header of 2128 bytes with the given fields. -/
def headerOf (ramdiskSize dtbSize count entrySize bootconfigSize : Nat) : Bytes :=
  List.replicate 24 0 ++ le32 ramdiskSize ++ List.replicate 2068 0 ++ le32 2128 ++ le32 dtbSize ++
    List.replicate 8 0 ++ le32 (count * entrySize) ++ le32 count ++ le32 entrySize ++
    le32 bootconfigSize

section HeaderFields

variable (ramdiskSize dtbSize count entrySize bootconfigSize : Nat)

theorem length_headerOf :
    (headerOf ramdiskSize dtbSize count entrySize bootconfigSize).length = 2128 := by
  simp only [headerOf, List.length_append, List.length_replicate, length_le32]

theorem headerOf_fields (ramdiskSmall : ramdiskSize < 2 ^ 32) (dtbSmall : dtbSize < 2 ^ 32)
    (countSmall : count < 2 ^ 32) (entrySmall : entrySize < 2 ^ 32)
    (bootconfigSmall : bootconfigSize < 2 ^ 32) :
    unpackU32 (headerOf ramdiskSize dtbSize count entrySize bootconfigSize) 24 =
        some ramdiskSize ∧
      unpackU32 (headerOf ramdiskSize dtbSize count entrySize bootconfigSize) 2096 = some 2128 ∧
      unpackU32 (headerOf ramdiskSize dtbSize count entrySize bootconfigSize) 2100 =
        some dtbSize ∧
      unpackU32 (headerOf ramdiskSize dtbSize count entrySize bootconfigSize) 2116 = some count ∧
      unpackU32 (headerOf ramdiskSize dtbSize count entrySize bootconfigSize) 2120 =
        some entrySize ∧
      unpackU32 (headerOf ramdiskSize dtbSize count entrySize bootconfigSize) 2124 =
        some bootconfigSize := by
  -- Each field is the cell behind the cells in front of it.
  have field (front back : Bytes) (offset value : Nat) (small : value < 2 ^ 32)
      (position : front.length = offset)
      (split : headerOf ramdiskSize dtbSize count entrySize bootconfigSize =
        front ++ le32 value ++ back) :
      unpackU32 (headerOf ramdiskSize dtbSize count entrySize bootconfigSize) offset =
        some value := by
    rw [split, ← position, unpackU32_middle front back value small]
  have zeros (length : Nat) : (List.replicate length (0 : UInt8)).length = length :=
    List.length_replicate
  let head := List.replicate 24 0 ++ le32 ramdiskSize ++ List.replicate 2068 0
  have headLength : head.length = 2096 := by
    simp only [head, List.length_append, zeros, length_le32]
  refine ⟨field (List.replicate 24 0) (List.replicate 2068 0 ++ le32 2128 ++ le32 dtbSize ++
      List.replicate 8 0 ++ le32 (count * entrySize) ++ le32 count ++ le32 entrySize ++
      le32 bootconfigSize) _ _ ramdiskSmall (zeros 24) ?_,
    field head (le32 dtbSize ++ List.replicate 8 0 ++ le32 (count * entrySize) ++ le32 count ++
      le32 entrySize ++ le32 bootconfigSize) _ _ (by decide) headLength ?_,
    field (head ++ le32 2128) (List.replicate 8 0 ++ le32 (count * entrySize) ++ le32 count ++
      le32 entrySize ++ le32 bootconfigSize) _ _ dtbSmall ?_ ?_,
    field (head ++ le32 2128 ++ le32 dtbSize ++ List.replicate 8 0 ++ le32 (count * entrySize))
      (le32 entrySize ++ le32 bootconfigSize) _ _ countSmall ?_ ?_,
    field (head ++ le32 2128 ++ le32 dtbSize ++ List.replicate 8 0 ++ le32 (count * entrySize) ++
      le32 count) (le32 bootconfigSize) _ _ entrySmall ?_ ?_,
    field (head ++ le32 2128 ++ le32 dtbSize ++ List.replicate 8 0 ++ le32 (count * entrySize) ++
      le32 count ++ le32 entrySize) [] _ _ bootconfigSmall ?_ ?_⟩
  all_goals first
    | simp only [List.length_append, headLength, zeros, length_le32]
    | simp only [head, headerOf, List.append_assoc, List.append_nil]

end HeaderFields

namespace Layout

/-- The image of given sections behind a header of 2128 bytes. -/
def ofSections (fragments : List TableFragment) (dtb : Bytes) (entrySize : Nat)
    (bootconfigSize : Nat) (trailing : Bytes) (entry_long : 44 ≤ entrySize)
    (names_short : ∀ fragment ∈ fragments, (encodeUtf8 fragment.name).length ≤ 32)
    (entries_sized : ∀ fragment ∈ fragments, 44 + fragment.boardId.length = entrySize)
    (small : (ramdiskOf fragments).length < 2 ^ 32 ∧ dtb.length < 2 ^ 32 ∧
      fragments.length < 2 ^ 32 ∧ entrySize < 2 ^ 32 ∧ bootconfigSize < 2 ^ 32) : Layout :=
  have fields := headerOf_fields (ramdiskOf fragments).length dtb.length fragments.length
    entrySize bootconfigSize small.1 small.2.1 small.2.2.1 small.2.2.2.1 small.2.2.2.2
  have headerLength := length_headerOf (ramdiskOf fragments).length dtb.length fragments.length
    entrySize bootconfigSize
  { header := headerOf (ramdiskOf fragments).length dtb.length fragments.length entrySize
      bootconfigSize
    headerGap := List.replicate 1968 0
    fragments
    ramdiskGap := List.replicate
      (align (ramdiskOf fragments).length pageSize - (ramdiskOf fragments).length) 0
    dtb
    dtbGap := List.replicate (align dtb.length pageSize - dtb.length) 0
    entrySize
    trailing
    header_long := by rw [headerLength]
    entry_long
    names_short
    entries_sized
    headerGap_length := by rw [List.length_replicate, headerLength]; rfl
    ramdiskGap_length := List.length_replicate
    dtbGap_length := List.length_replicate
    ramdisk_field := fields.1
    headerSize_field := by rw [headerLength]; exact fields.2.1
    dtb_field := fields.2.2.1
    count_field := fields.2.2.2.1
    entrySize_field := fields.2.2.2.2.1 }

end Layout

end DashTwrp.VendorBoot
