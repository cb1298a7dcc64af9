import DashTwrp.VendorBoot.RepackImage
import DashTwrp.VendorBoot.Truncation

namespace DashTwrp.VendorBoot

open DashTwrp.Python

/-! Images of the repack tool as templates.

What the tool takes from a template is in its images too, so a chain of repacks
ends with the image that the last one makes from the first template. -/

section

variable {one other : Image} {f0 f1New out : Bytes} {dStart otherStart : Nat}

/-- Two templates from which the tool makes the same images: `dStart` and
`otherStart` are where their DTBs are copied from. -/
structure Alike (one other : Image) (dStart otherStart : Nat) : Prop where
  hs : one.hs = other.hs
  ds : one.ds = other.ds
  es : one.es = other.es
  page : SameOutside 24 28 (pageImage one) (pageImage other)
  found : findDtb one = some dStart
  foundOther : findDtb other = some otherStart
  dtb : dtbCopy one dStart = dtbCopy other otherStart

namespace Alike

variable (alike : Alike one other dStart otherStart)

include alike

theorem newDtbo (rsz : Nat) : newDtbo one rsz = newDtbo other rsz := by
  rw [VendorBoot.newDtbo, VendorBoot.newDtbo, alike.hs]

theorem newTblo (rsz : Nat) : newTblo one rsz = newTblo other rsz := by
  rw [VendorBoot.newTblo, VendorBoot.newTblo, alike.newDtbo, alike.ds]

theorem tableImage : tableImage one f0 f1New dStart = tableImage other f0 f1New otherStart := by
  have sized : sizedImage one f0 f1New = sizedImage other f0 f1New :=
    alike.page.assign_eq _
  simp only [VendorBoot.tableImage, firstEntryImage, dtbImage, fragmentImage, f0Image, sized,
    alike.newDtbo, alike.newTblo, alike.dtb, alike.hs, alike.ds, alike.es]

theorem buildImage_iff : buildImage one f0 f1New = .ok out ↔ buildImage other f0 f1New = .ok out := by
  rw [buildImage_eq_ok_iff, buildImage_eq_ok_iff]
  simp only [alike.found, alike.foundOther, Option.some.injEq, exists_eq_left', alike.tableImage,
    alike.es]

/-- Templates that are alike and have the same F0 are repacked alike. -/
theorem repack_iff {first second : Fragment} {rest : List Fragment}
    {firstOther secondOther : Fragment} {restOther : List Fragment}
    (frags : one.frags = first :: second :: rest)
    (fragsOther : other.frags = firstOther :: secondOther :: restOther)
    (payload : first.payload = firstOther.payload) :
    repack one f1New = .ok out ↔ repack other f1New = .ok out := by
  rw [repack_eq_ok_iff, repack_eq_ok_iff, frags, fragsOther]
  simp only [List.cons.injEq, and_assoc, exists_and_left, exists_eq_left', payload,
    alike.buildImage_iff]

end Alike

end

section

variable {d f1New out : Bytes} {tpl : Image}

/-- What the chain of repacks relies on: a header, entries of 108 bytes, and a DTB
section that holds the magic the tool looks for. -/
structure Ordinary (tpl : Image) : Prop where
  headed : 1 ≤ tpl.hs
  sized : tpl.es = 108
  whole : 68 ≤ tpl.ds

/-- In an image the tool has written every section is in its place. -/
theorem repack_placed (read : rd d = .ok tpl) (ordinary : Ordinary tpl)
    (made : repack tpl f1New = .ok out) :
    ∃ first second rest dStart, tpl.frags = first :: second :: rest ∧
      first.payload.length + f1New.length < 2 ^ 32 ∧ findDtb tpl = some dStart ∧
      out = tableImage tpl first.payload f1New dStart ∧
      Placed tpl first.payload f1New dStart := by
  obtain ⟨first, second, rest, frags, built, total⟩ := repack_eq_ok_iff.mp made
  obtain ⟨bound, _, dStart, found, rfl⟩ := buildImage_eq_ok_iff.mp built
  have page := page_of_section read frags (tblo_of_header read ordinary.headed)
  obtain ⟨fits, whole⟩ := (length_tableImage_eq_iff read frags page ordinary.sized found).mp total
  have long : 44 ≤ tpl.es := by
    rw [ordinary.sized]
    decide
  rw [← ordinary.sized] at fits
  exact ⟨first, second, rest, dStart, frags, bound, found, rfl,
    ⟨page, long, by omega, whole⟩⟩

/-- What `rd` returns for an image of the tool, with `count` entries behind the two. -/
def reread (tpl : Image) (f0 f1New : Bytes) (dStart count : Nat) : Image where
  raw := tableImage tpl f0 f1New dStart
  p0 := slice (tableImage tpl f0 f1New dStart) 0 pageSize
  hs := tpl.hs
  ds := tpl.ds
  rs := f0.length + f1New.length
  ro := align tpl.hs pageSize
  dtbo := newDtbo tpl (f0.length + f1New.length)
  tblo := newTblo tpl (f0.length + f1New.length)
  ec := tpl.ec
  es := tpl.es
  frags :=
    { sz := f0.length, off := 0, typ := 1, name := "", payload := f0 } ::
    { sz := f1New.length, off := f0.length, typ := 2, name := "", payload := f1New } ::
    List.replicate count blankFragment

namespace Placed

variable {f0 : Bytes} {dStart : Nat} (placed : Placed tpl f0 f1New dStart) (count : Nat)

include placed

/-- The DTB of the new image is found at the start of its section. -/
theorem findDtb_reread (found : findDtb tpl = some dStart) (whole : 68 ≤ tpl.ds) :
    findDtb (reread tpl f0 f1New dStart count) =
      some (newDtbo tpl (f0.length + f1New.length)) := by
  obtain ⟨lower, _, _, magic, first⟩ := findDtb_eq_some found
  obtain ⟨_, dtbEnd, tableEnd⟩ := placed.order
  have copied (start stop : Nat) (inside : stop ≤ tpl.ds) :
      slice (tableImage tpl f0 f1New dStart)
          (newDtbo tpl (f0.length + f1New.length) + start : Nat)
          (newDtbo tpl (f0.length + f1New.length) + stop : Nat) =
        slice tpl.raw (dStart + start : Nat) (dStart + stop : Nat) := by
    rw [← slice_slice _ _ (newDtbo tpl (f0.length + f1New.length) + tpl.ds) _ _ (by omega),
      placed.slice_dtb, dtbCopy, slice_slice _ _ _ _ _ (by omega)]
  have total := placed.length_table
  refine findDtb_of_first (Nat.le_refl _) (by simp only [reread]; omega) ?_ ?_ ?_
  · simp only [reread, total]
    omega
  · exact (copied 64 68 whole).trans magic
  · intro earlier behind before
    obtain ⟨offset, rfl⟩ := Nat.exists_eq_add_of_le behind
    have same := copied offset (offset + 4) (by simp only [reread] at before; omega)
    rw [← Nat.add_assoc, ← Nat.add_assoc] at same
    simp only [reread] at before ⊢
    rw [same]
    exact first _ (by omega) (by omega)

theorem placed_reread (headed : 1 ≤ tpl.hs) :
    Placed (reread tpl f0 f1New dStart count) f0 f1New
      (newDtbo tpl (f0.length + f1New.length)) := by
  obtain ⟨_, dtbEnd, tableEnd⟩ := placed.order
  refine ⟨?_, placed.entry_long, placed.fits, ?_⟩
  · exact (placed.page_outside headed).length_eq.trans placed.page
  · simp only [reread, placed.length_table]
    omega

theorem alike_reread (headed : 1 ≤ tpl.hs) (found : findDtb tpl = some dStart)
    (whole : 68 ≤ tpl.ds) :
    Alike (reread tpl f0 f1New dStart count) tpl (newDtbo tpl (f0.length + f1New.length)) dStart where
  hs := rfl
  ds := rfl
  es := rfl
  page := by
    rw [(placed.placed_reread count headed).pageImage_eq, placed.pageImage_eq]
    exact (placed.page_outside headed).append_right _
  found := placed.findDtb_reread count found whole
  foundOther := found
  dtb := placed.slice_dtb

end Placed

/-- What `rd` returns for an image that the tool has made of `tpl`. -/
theorem rd_repacked (read : rd d = .ok tpl) (ordinary : Ordinary tpl)
    (made : repack tpl f1New = .ok out) :
    ∃ first second rest dStart count, tpl.frags = first :: second :: rest ∧
      findDtb tpl = some dStart ∧ Placed tpl first.payload f1New dStart ∧
      rd out = .ok (reread tpl first.payload f1New dStart count) := by
  obtain ⟨first, second, rest, dStart, frags, bound, found, rfl, placed⟩ :=
    repack_placed read ordinary made
  obtain ⟨more, entries⟩ := two_entries read frags
  obtain ⟨count, readBack, _⟩ := placed.rd_tableImage read ordinary.headed bound entries
  exact ⟨first, second, rest, dStart, count, frags, found, placed, readBack⟩

/-- An image of the tool is a template from which the tool makes the images it
makes from the first template. -/
theorem repack_again (read : rd d = .ok tpl) (ordinary : Ordinary tpl)
    (made : repack tpl f1New = .ok out) :
    ∃ again, rd out = .ok again ∧ Ordinary again ∧
      ∀ next later, repack again next = .ok later ↔ repack tpl next = .ok later := by
  obtain ⟨first, second, rest, dStart, count, frags, found, placed, readBack⟩ :=
    rd_repacked read ordinary made
  have alike := placed.alike_reread count ordinary.headed found ordinary.whole
  exact ⟨reread tpl first.payload f1New dStart count, readBack,
    ⟨ordinary.headed, ordinary.sized, ordinary.whole⟩, fun next later =>
      alike.repack_iff rfl frags rfl⟩

/-- `Chain d f1s out`: `out` is the last image of a chain of repacks with the F1
of the list, each from the image before, the first from `d`. -/
inductive Chain (d : Bytes) : List Bytes → Bytes → Prop where
  | first {tpl : Image} {f1New out : Bytes} :
      rd d = .ok tpl → repack tpl f1New = .ok out → Chain d [f1New] out
  | next {f1s : List Bytes} {middle : Bytes} {tpl : Image} {f1New out : Bytes} :
      Chain d f1s middle → rd middle = .ok tpl → repack tpl f1New = .ok out →
      Chain d (f1s ++ [f1New]) out

theorem Chain.last (read : rd d = .ok tpl) (ordinary : Ordinary tpl) {f1s : List Bytes}
    (chain : Chain d f1s out) :
    (∀ f1New ∈ f1s, ∃ image, repack tpl f1New = .ok image) ∧
      ∃ last, f1s.getLast? = some last ∧ repack tpl last = .ok out := by
  induction chain with
  | @first image f1New out readFirst made =>
      rw [read] at readFirst
      cases readFirst
      refine ⟨fun other member => ?_, f1New, rfl, made⟩
      rw [List.mem_singleton.mp member]
      exact ⟨out, made⟩
  | @next f1s middle again f1New out chain readMiddle made ih =>
      obtain ⟨each, last, _, madeMiddle⟩ := ih
      obtain ⟨image, readImage, _, same⟩ := repack_again read ordinary madeMiddle
      rw [readMiddle] at readImage
      cases readImage
      have direct := (same f1New out).mp made
      refine ⟨fun other member => ?_, f1New, List.getLast?_concat, direct⟩
      cases List.mem_append.mp member with
      | inl before => exact each other before
      | inr last =>
          rw [List.mem_singleton.mp last]
          exact ⟨out, direct⟩

theorem chain_of_last (read : rd d = .ok tpl) (ordinary : Ordinary tpl) {f1s : List Bytes}
    (each : ∀ f1New ∈ f1s, ∃ image, repack tpl f1New = .ok image) {last : Bytes}
    (isLast : f1s.getLast? = some last) (made : repack tpl last = .ok out) : Chain d f1s out := by
  induction f1s using List.reverseRecOn generalizing last out with
  | nil => simp at isLast
  | append_singleton front f1New ih =>
      rw [List.getLast?_concat, Option.some.injEq] at isLast
      subst isLast
      cases before : front.getLast? with
      | none =>
          rw [List.getLast?_eq_none_iff] at before
          subst before
          exact .first read made
      | some earlier =>
          obtain ⟨middle, madeMiddle⟩ :=
            each earlier (List.mem_append_left _ (List.mem_of_getLast? before))
          have chain := ih (fun other member => each other (List.mem_append_left _ member)) before
            madeMiddle
          obtain ⟨again, readAgain, _, same⟩ := repack_again read ordinary madeMiddle
          exact .next chain readAgain ((same _ _).mpr made)

/-- A chain of repacks ends with the image of its last F1 and the first template:
the F1 before it make no difference, as long as each of them can be packed. -/
theorem chain_iff (read : rd d = .ok tpl) (ordinary : Ordinary tpl) (f1s : List Bytes) :
    Chain d f1s out ↔ (∀ f1New ∈ f1s, ∃ image, repack tpl f1New = .ok image) ∧
      ∃ last, f1s.getLast? = some last ∧ repack tpl last = .ok out :=
  ⟨Chain.last read ordinary, fun ⟨each, _, isLast, made⟩ =>
    chain_of_last read ordinary each isLast made⟩

theorem oneEntryLayout_ordinary : Ordinary oneEntryLayout.image where
  headed := by
    have header : oneEntryLayout.image.hs = 2128 := length_headerOf _ _ _ _ _
    omega
  sized := rfl
  whole := Nat.le_refl 68

theorem oneEntryLayout_repacks (f1New : Bytes) (short : f1New.length < 4096) :
    ∃ image, repack oneEntryLayout.image f1New = .ok image :=
  ⟨_, stockLayout_repacked "recovery" oneEntryDtb 0 [] _ _ f1New 0 (by decide) (by decide) short
    (by decide)⟩

theorem chain_iff_stock : ∃ out, Chain oneEntryLayout.encode [[7], [], [1, 2, 3]] out ∧
    repack oneEntryLayout.image [1, 2, 3] = .ok out := by
  obtain ⟨out, made⟩ := oneEntryLayout_repacks [1, 2, 3] (by decide)
  refine ⟨out, (chain_iff oneEntryLayout.rd_encode oneEntryLayout_ordinary _).mpr
    ⟨fun f1New member => ?_, _, rfl, made⟩, made⟩
  simp only [List.mem_cons, List.not_mem_nil, or_false] at member
  rcases member with rfl | rfl | rfl
  · exact oneEntryLayout_repacks [7] (by decide)
  · exact oneEntryLayout_repacks [] (by decide)
  · exact ⟨out, made⟩

/-! ### The images in the fragment tool -/

/-- Table entries of zeros are empty fragments for `parse`, which needs all of them. -/
theorem parseFrags_zeros {start : Nat} (ro tblo es i remaining : Nat)
    (zeros : ∀ index, start ≤ index → index < d.length → d[index]? = some 0)
    (behind : start ≤ tblo + i * es)
    (inside : ∀ index < remaining, tblo + (i + index) * es + 12 ≤ d.length) :
    parseFrags d ro tblo es i remaining = .ok (List.replicate remaining []) := by
  induction remaining generalizing i with
  | zero => rfl
  | succ remaining ih =>
      have next : i * es ≤ (i + 1) * es := Nat.mul_le_mul_right _ (Nat.le_succ i)
      have here : tblo + i * es + 12 ≤ d.length := inside 0 (Nat.zero_lt_succ remaining)
      have later := ih (i + 1) (by omega) fun index small => by
        rw [Nat.add_right_comm i 1 index]
        exact inside (index + 1) (Nat.succ_lt_succ small)
      have empty : slice d (ro + 0 : Nat) (ro + 0 + 0 : Nat) = [] := by
        rw [slice_natCast]
        simp
      simp only [parseFrags, unpackU32_zeros zeros _ (by omega) (show tblo + i * es + 4 ≤ _ by omega),
        unpackU32_zeros zeros _ (by omega) (show tblo + i * es + 4 + 4 ≤ _ by omega),
        unpackU32_zeros zeros _ (by omega) (show tblo + i * es + 8 + 4 ≤ _ by omega), later, empty,
        List.replicate_succ]

/-- What `parse` returns for an image of the repack tool. -/
theorem Placed.parse_tableImage {f0 : Bytes} {dStart more : Nat}
    (placed : Placed tpl f0 f1New dStart) (read : rd d = .ok tpl) (headed : 1 ≤ tpl.hs)
    (bound : f0.length + f1New.length < 2 ^ 32) (entries : tpl.ec = more + 2)
    (inside : ∀ index < tpl.ec,
      newTblo tpl (f0.length + f1New.length) + index * tpl.es + 12 ≤ partSize) :
    parse (tableImage tpl f0 f1New dStart) = .ok (f0 :: f1New :: List.replicate more []) := by
  obtain ⟨fragmentsEnd, dtbEnd, tableEnd⟩ := placed.order
  obtain ⟨count, readBack, _⟩ := placed.rd_tableImage read headed bound entries
  have long := placed.entry_long
  have total := placed.length_table
  have blanks := parseFrags_zeros (align tpl.hs pageSize)
    (newTblo tpl (f0.length + f1New.length)) tpl.es 2 more
    (fun index behind within => placed.zero_behind index behind headed within) (by omega)
    fun index small => by
      rw [total]
      exact inside (2 + index) (by omega)
  obtain ⟨firstSize, firstOff, firstType, _⟩ := readEntry_eq_ok (readEntry_written
    (align tpl.hs pageSize) long (by omega) (by decide) (by decide) placed.slice_first_entry
    (by omega))
  obtain ⟨secondSize, secondOff, secondType, _⟩ := readEntry_eq_ok (readEntry_written
    (align tpl.hs pageSize) long (by omega) (by omega) (by decide) placed.slice_second_entry
    (by omega))
  have payload := placed.slice_f1
  rw [parse_of_header (rd_header readBack)]
  simp only [entries, parseFrags, Nat.zero_mul, Nat.add_zero, Nat.zero_add, Nat.one_mul,
    Nat.reduceAdd, firstSize, firstOff, firstType, secondSize, secondOff, secondType, blanks,
    placed.slice_f0, payload]

/-- The fragment tool reads an image of the repack tool exactly when its table lies
in the partition, and then finds the two fragments in front. -/
theorem parse_repacked (read : rd d = .ok tpl) (ordinary : Ordinary tpl)
    (made : repack tpl f1New = .ok out) :
    ∃ first second rest, tpl.frags = first :: second :: rest ∧
      ((∀ index < tpl.ec, newTblo tpl (first.payload.length + f1New.length) + index * 108 + 12 ≤
          partSize) →
        parse out = .ok (first.payload :: f1New :: List.replicate (tpl.ec - 2) [])) ∧
      ((∃ index < tpl.ec, partSize <
          newTblo tpl (first.payload.length + f1New.length) + index * 108 + 12) →
        parse out = .error .structError) := by
  obtain ⟨first, second, rest, dStart, frags, bound, found, rfl, placed⟩ :=
    repack_placed read ordinary made
  obtain ⟨more, entries⟩ := two_entries read frags
  refine ⟨first, second, rest, frags, fun inside => ?_, fun cut => ?_⟩
  · have parsed := placed.parse_tableImage read ordinary.headed bound entries
      (by rw [ordinary.sized]; exact inside)
    rw [parsed, entries, Nat.add_sub_cancel]
  · obtain ⟨count, readBack, _⟩ := placed.rd_tableImage read ordinary.headed bound entries
    obtain ⟨index, listed, behind⟩ := cut
    rw [parse_of_header (rd_header readBack)]
    cases parsed : parseFrags (tableImage tpl first.payload f1New dStart) (align tpl.hs pageSize)
        (newTblo tpl (first.payload.length + f1New.length)) tpl.es 0 tpl.ec with
    | error error => rw [parseFrags_error parsed]
    | ok frags =>
        have inside := parseFrags_inside parsed listed
        rw [Nat.zero_add, ordinary.sized, placed.length_table] at inside
        omega

theorem parse_repacked_stock : ∃ out, repack oneEntryLayout.image [1, 2, 3] = .ok out ∧
    parse out = .ok [[0xf0], [1, 2, 3]] := by
  refine ⟨_, oneEntryLayout_repacked, ?_⟩
  obtain ⟨first, second, rest, frags, parsed, _⟩ :=
    parse_repacked oneEntryLayout.rd_encode oneEntryLayout_ordinary oneEntryLayout_repacked
  rw [show oneEntryLayout.image.frags = _ from stockLayout_frags _ _ _ _ _ _] at frags
  cases frags
  have count : oneEntryLayout.image.ec = 2 := rfl
  have fits := oneEntryLayout_placed.fits
  have sized : oneEntryLayout.image.es = 108 := rfl
  rw [sized] at fits
  rw [count] at parsed
  refine parsed fun index small => ?_
  change newTblo oneEntryLayout.image ([(0xf0 : UInt8)].length + [1, 2, 3].length) + index * 108 + 12 ≤
    partSize
  omega

end

end DashTwrp.VendorBoot
