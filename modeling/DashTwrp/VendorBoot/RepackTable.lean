import DashTwrp.VendorBoot.RepackImage

namespace DashTwrp.VendorBoot

open DashTwrp.Python

/-! The table of a repacked image.  The tool does not edit the template's table
but builds two entries out of size, offset and index, so an entry keeps its
identity only when it already had the one it is given. -/

/-- What identifies the fragment of a table entry. -/
structure Identity where
  typ : Bytes
  name : Bytes
  boardId : Bytes
deriving DecidableEq, Repr

/-- The identity in the entry at `eo`. -/
def identity (img : Bytes) (eo : Nat) : Identity where
  typ := slice img (eo + 8 : Nat) (eo + 12 : Nat)
  name := slice img (eo + 12 : Nat) (eo + 44 : Nat)
  boardId := slice img (eo + 44 : Nat) (eo + 108 : Nat)

/-- The identity the tool gives to the fragment with an index: its number as the
type, no name and no board id. -/
def builtIdentity (index : Nat) : Identity where
  typ := le32 (index + 1)
  name := List.replicate 32 0
  boardId := List.replicate 64 0

variable {d f0 f1New out : Bytes} {tpl : Image} {dStart : Nat}
variable {first second : Fragment} {rest : List Fragment}

/-- The identity an entry of 108 bytes holds. -/
theorem identity_of_entry {img name boardId : Bytes} {eo size off typ : Nat}
    (nameLength : name.length = 32) (boardLength : boardId.length = 64)
    (entry : slice img eo (eo + 108 : Nat) =
      le32 size ++ le32 off ++ le32 typ ++ name ++ boardId) :
    identity img eo = { typ := le32 typ, name, boardId } := by
  have cell (front values back : Bytes) (start stop : Nat) (inside : stop ≤ 108)
      (split : le32 size ++ le32 off ++ le32 typ ++ name ++ boardId = front ++ values ++ back)
      (lower : start = front.length) (upper : stop = front.length + values.length) :
      slice img (eo + start : Nat) (eo + stop : Nat) = values := by
    rw [← slice_slice img eo (eo + 108) start stop (by omega), entry, split]
    exact slice_middle front values back start stop lower upper
  simp only [identity, Identity.mk.injEq]
  refine ⟨cell (le32 size ++ le32 off) _ (name ++ boardId) 8 12 (by decide) ?_ rfl rfl,
    cell (le32 size ++ le32 off ++ le32 typ) _ boardId 12 44 (by decide) rfl rfl ?_,
    cell (le32 size ++ le32 off ++ le32 typ ++ name) _ [] 44 108 (by decide) ?_ ?_ ?_⟩
  · rw [List.append_assoc]
  · rw [nameLength]
    rfl
  · rw [List.append_nil]
  · rw [List.length_append, nameLength]
    rfl
  · rw [List.length_append, nameLength, boardLength]
    rfl

theorem identity_of_entryBytes {img : Bytes} {eo size off index : Nat}
    (entry : slice img eo (eo + 108 : Nat) = entryBytes 108 size off (index + 1)) :
    identity img eo = builtIdentity index := by
  have zeros : List.replicate (max 108 44 - 12) (0 : UInt8) =
      List.replicate 32 0 ++ List.replicate 64 0 := rfl
  rw [entryBytes, zeros, ← List.append_assoc] at entry
  exact identity_of_entry List.length_replicate List.length_replicate entry

/-- A template's entry has the identity its fragment was laid out with. -/
theorem Layout.identity_encode (layout : Layout) (done pending : List TableFragment)
    (fragment : TableFragment) (sized : layout.entrySize = 108)
    (split : layout.fragments = done ++ fragment :: pending) :
    identity layout.encode (layout.tblo + done.length * 108) =
      { typ := le32 fragment.typ.toNat, name := fragment.nameField,
        boardId := fragment.boardId } := by
  have member : fragment ∈ layout.fragments := by
    rw [split]
    exact List.mem_append_right done List.mem_cons_self
  have short := layout.names_short fragment member
  have entrySized := layout.entries_sized fragment member
  have entry := slice_entry split
  rw [sized] at entry entrySized
  refine identity_of_entry ?_ (by omega) entry
  rw [TableFragment.nameField, List.length_append, List.length_replicate]
  omega

/-- When every write lands in place, both entries have the identity of their index. -/
theorem Placed.identities (placed : Placed tpl f0 f1New dStart) (sized : tpl.es = 108) (index : Nat)
    (two : index < 2) :
    identity (tableImage tpl f0 f1New dStart)
      (newTblo tpl (f0.length + f1New.length) + index * 108) = builtIdentity index := by
  have firstEntry := placed.slice_first_entry
  have secondEntry := placed.slice_second_entry
  rw [sized] at firstEntry secondEntry
  match index, two with
  | 0, _ =>
      rw [Nat.zero_mul, Nat.add_zero]
      exact identity_of_entryBytes firstEntry
  | 1, _ =>
      rw [Nat.one_mul]
      exact identity_of_entryBytes secondEntry

/-- A template without a whole page 0 has no sections, and the tool accepts it
only by appending the table behind the end of the partition. -/
theorem table_behind_partition (headless : align tpl.hs pageSize = 0) (noDtb : tpl.ds = 0)
    (cut : (pageImage tpl).length < partSize) (sized : tpl.es = 108)
    (same : (tableImage tpl f0 f1New dStart).length = partSize) :
    partSize ≤ newTblo tpl (f0.length + f1New.length) := by
  by_contra inside
  have onePage : newTblo tpl (f0.length + f1New.length) + 4096 ≤ partSize := by
    have tablePage := newTblo_page tpl (f0.length + f1New.length)
    have partPage := partSize_mod
    unfold pageSize at tablePage partPage
    omega
  have fragmentsEnd := fragments_le_newDtbo tpl (f0.length + f1New.length)
  have dtbEnd := dtb_le_newTblo tpl (f0.length + f1New.length)
  have fragmentLength := (length_fragmentImage tpl f0 f1New).2 (by rw [headless]; exact Nat.zero_le _)
  have copyLength := length_dtbCopy tpl dStart
  have dtbLength := length_dtbImage tpl f0 f1New dStart
  have firstLength := length_firstEntryImage tpl f0 f1New dStart
  rw [length_tableImage] at same
  rw [sized, Nat.max_eq_left (by decide)] at same firstLength
  -- What follows is about the six lengths only.
  generalize (pageImage tpl).length = pageLength at *
  generalize (fragmentImage tpl f0 f1New).length = fragments at *
  generalize (dtbImage tpl f0 f1New dStart).length = dtb at *
  generalize (firstEntryImage tpl f0 f1New dStart).length = entry at *
  generalize (dtbCopy tpl dStart).length = copy at *
  generalize partSize = total at *
  have unmoved : dtb = fragments := by omega
  omega

/-- The table entries of every image the tool accepts identify the template's
fragments exactly when the template names them by their index, in a file of at
least one page. -/
theorem repacked_identities_kept_iff (read : rd d = .ok tpl)
    (frags : tpl.frags = [first, second]) (sized : tpl.es = 108)
    (passed : repack tpl f1New = .ok out) :
    (∀ index < 2, identity out (newTblo tpl (first.payload.length + f1New.length) + index * 108) =
        identity d (tpl.tblo + index * 108)) ↔
      pageSize ≤ d.length ∧
        ∀ index < 2, identity d (tpl.tblo + index * 108) = builtIdentity index := by
  obtain ⟨_, _, _, sameFrags, built, total⟩ := repack_eq_ok_iff.mp passed
  rw [frags] at sameFrags
  cases sameFrags
  obtain ⟨_, _, dStart, found, rfl⟩ := buildImage_eq_ok_iff.mp built
  obtain ⟨tables, entry, header, _, pageLength⟩ := template_bounds read frags
  have raw := (rd_eq_ok read).1
  rw [raw] at entry header pageLength
  by_cases long : pageSize ≤ d.length
  · have page : tpl.p0.length = pageSize := by
      rw [pageLength]
      exact Nat.min_eq_left long
    obtain ⟨fits, whole⟩ := (length_tableImage_eq_iff read frags page sized found).mp total
    have placed : Placed tpl first.payload f1New dStart :=
      ⟨page, by omega, by rw [sized]; exact fits, whole⟩
    constructor
    · intro kept
      refine ⟨long, fun index two => ?_⟩
      rw [← kept index two, placed.identities sized index two]
    · rintro ⟨_, named⟩ index two
      rw [named index two, placed.identities sized index two]
  · constructor
    · intro kept
      exfalso
      have noTable : tpl.tblo = 0 := by
        by_contra sections
        have page := page_of_section read frags (by omega)
        omega
      have dtbEnd := le_align tpl.ds
      obtain ⟨_, _, _, _, _, _, _, _, ro, dtbo, _, _⟩ := rd_eq_ok read
      have roEnd := le_align (tpl.ro + tpl.rs)
      have cut : (pageImage tpl).length < partSize := by
        rw [length_pageImage, pageLength]
        have onePage := page_le_partSize
        omega
      have behind := table_behind_partition (by omega) (by omega) cut sized total
      have typeField := congrArg (fun found => found.typ.length) (kept 0 (by decide))
      simp only [identity, length_slice] at typeField
      omega
    · rintro ⟨page, _⟩
      exact absurd page long

/-- The recovery entry of a stock template has its name. -/
theorem stockLayout_recovery_identity (recoveryName : String) (dtb : Bytes) (bootconfigSize : Nat)
    (trailing : Bytes) (short : (encodeUtf8 recoveryName).length ≤ 32)
    (small : dtb.length < 2 ^ 32 ∧ bootconfigSize < 2 ^ 32) :
    identity (stockLayout recoveryName dtb bootconfigSize trailing short small).encode
        ((stockLayout recoveryName dtb bootconfigSize trailing short small).image.tblo + 1 * 108) =
      { typ := le32 2
        name := encodeUtf8 recoveryName ++
          List.replicate (32 - (encodeUtf8 recoveryName).length) 0
        boardId := List.replicate 64 0 } :=
  Layout.identity_encode _ [platformFragment] [] (recoveryFragment recoveryName) rfl rfl

theorem stockLayout_platform_identity (recoveryName : String) (dtb : Bytes) (bootconfigSize : Nat)
    (trailing : Bytes) (short : (encodeUtf8 recoveryName).length ≤ 32)
    (small : dtb.length < 2 ^ 32 ∧ bootconfigSize < 2 ^ 32) :
    identity (stockLayout recoveryName dtb bootconfigSize trailing short small).encode
        ((stockLayout recoveryName dtb bootconfigSize trailing short small).image.tblo + 0 * 108) =
      builtIdentity 0 :=
  Layout.identity_encode _ [] [recoveryFragment recoveryName] platformFragment rfl rfl

theorem emptyName_short : (encodeUtf8 "").length ≤ 32 := by decide

/-- A template whose fragments have no names, and their numbers as types. -/
def namelessLayout : Layout :=
  stockLayout "" oneEntryDtb 0 [] emptyName_short oneEntryDtb_sizes

theorem repacked_identities_kept_nameless :
    ∃ out, repack namelessLayout.image [1, 2, 3] = .ok out ∧
      ∀ index < 2, identity out (newTblo namelessLayout.image 4 + index * 108) =
        identity namelessLayout.encode (namelessLayout.image.tblo + index * 108) := by
  have passed : repack namelessLayout.image [1, 2, 3] = .ok _ :=
    stockLayout_repacked "" oneEntryDtb 0 [] _ _ [1, 2, 3] 0 (by decide) (by decide) (by decide)
      (by decide)
  have entrySize : namelessLayout.image.es = 108 := rfl
  have frags : namelessLayout.image.frags = _ := stockLayout_frags "" oneEntryDtb 0 [] _ _
  have kept := repacked_identities_kept_iff namelessLayout.rd_encode frags entrySize passed
  simp only [List.length_cons, List.length_nil, Nat.reduceAdd] at kept
  have named (index : Nat) (two : index < 2) :
      identity namelessLayout.encode (namelessLayout.image.tblo + index * 108) =
        builtIdentity index := by
    match index, two with
    | 0, _ => exact stockLayout_platform_identity "" oneEntryDtb 0 [] _ _
    | 1, _ => exact stockLayout_recovery_identity "" oneEntryDtb 0 [] _ _
  exact ⟨_, passed, kept.mpr ⟨namelessLayout.page_le_encode, named⟩⟩

/-- The recovery fragment of a stock template loses its name. -/
theorem repacked_identities_lost_stock :
    ∃ out, rd oneEntryLayout.encode = .ok oneEntryLayout.image ∧
      oneEntryLayout.image.frags.length = 2 ∧ oneEntryLayout.image.es = 108 ∧
      repack oneEntryLayout.image [1, 2, 3] = .ok out ∧
      identity out (newTblo oneEntryLayout.image 4 + 1 * 108) ≠
        identity oneEntryLayout.encode (oneEntryLayout.image.tblo + 1 * 108) := by
  refine ⟨_, oneEntryLayout.rd_encode, rfl, rfl, oneEntryLayout_repacked, fun same => ?_⟩
  have entrySize : oneEntryLayout.image.es = 108 := rfl
  have built := oneEntryLayout_placed.identities entrySize 1 (by decide)
  simp only [List.length_cons, List.length_nil, Nat.reduceAdd] at built
  have named := same.trans (stockLayout_recovery_identity "recovery" oneEntryDtb 0 [] _ _)
  have names : List.replicate 32 0 = encodeUtf8 "recovery" ++
      List.replicate (32 - (encodeUtf8 "recovery").length) 0 :=
    congrArg Identity.name (built.symm.trans named)
  revert names
  decide +kernel

end DashTwrp.VendorBoot
