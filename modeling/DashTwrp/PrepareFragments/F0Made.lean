import DashTwrp.PrepareFragments.F0Result
import DashTwrp.PrepareFragments.Run

namespace DashTwrp.PrepareFragments

open DashTwrp.Python DashTwrp.Unix DashTwrp.InitRc
open DashTwrp.RepackF1 (subtreeAt)

/-! The tree that is packed as F0, by the two trees it is made of. -/

section

variable {unpacker : Unpacker} {fs after : FileSystem Bytes} {data : Bytes} {tmpdir : Location}
    {dest : Name}

theorem decompressFragment_planted
    (extracted : decompressFragment unpacker fs data tmpdir dest = .ok after) :
    ∃ tree, unpacker.unpacked data = .ok tree ∧
      (fs.node tmpdir = some .directory → fs.node (dest :: tmpdir) = none →
        Planted (dest :: tmpdir) fs tree after) := by
  unfold decompressFragment at extracted
  obtain ⟨cleared, removes, extracted⟩ := except_bind_eq_ok extracted
  obtain ⟨made, makes, extracted⟩ := except_bind_eq_ok extracted
  obtain ⟨r, decoded, extracted⟩ := except_bind_eq_ok extracted
  obtain ⟨p, listed, extracts⟩ := except_bind_eq_ok extracted
  have unpacked : unpacker.unpacked data = .ok p.2 := by
    rw [Unpacker.unpacked, decoded]
    change (unpacker.cpio r.2 >>= _) = _
    rw [listed]
    rfl
  refine ⟨p.2, unpacked, fun inside free => ?_⟩
  obtain ⟨clearedAs, madeAs, removesAs, makesAs, emptied⟩ := emptied_planted inside (.inl free)
  obtain rfl := Except.ok.inj (removesAs.symm.trans removes)
  obtain rfl := Except.ok.inj (makesAs.symm.trans makes)
  have madeInside : madeAs.node tmpdir = some .directory := by
    rw [emptied.outside tmpdir (not_suffix_tail tmpdir), inside]
  have planted : ∃ result, extractInto madeAs p.2 tmpdir dest = .ok result ∧
      Planted (dest :: tmpdir) fs p.2 result := extractInto_planted madeInside emptied.outside
  obtain ⟨result, extractsAs, planted⟩ := planted
  obtain rfl := Except.ok.inj (extractsAs.symm.trans extracts)
  exact planted

end

/-- No path that the step reads or writes in the two trees has a link on it. -/
structure F0TreesUnlinked (stock ci : FileSystem Bytes) : Prop where
  recovery : Unlinked stock [] recoveryNames
  res : Unlinked stock [] resNames
  targets : ∀ lib ∈ twrp16Libs, Unlinked stock [] (twrp16LibNames lib ++ [lib])
  sources : ∀ lib ∈ twrp16Libs, Unlinked ci [] (ciLibNames lib)
  script : Unlinked stock [] initRcNames

/-- What the checks look at in the tree that is packed. -/
structure F0Made (stock ci made : FileSystem Bytes) : Prop where
  noRecovery : made.node (place [] recoveryNames) = none
  noRes : made.node (place [] resNames) = none
  library : ∀ lib ∈ twrp16Libs, made.node (place [] (twrp16LibNames lib)) ≠ none ↔
    ci.node (place [] (ciLibNames lib)) ≠ none ∨ stock.node (place [] (twrp16LibNames lib)) ≠ none
  script : ∀ data, made.node (place [] initRcNames) = some (.file data) ↔
    ∃ raw c, stock.node (place [] initRcNames) = some (.file raw) ∧ decodeText raw = some c ∧
      data = encodeUtf8 (String.ofList (editText c))
  unlinked : ∀ names, Unlinked stock [] names → Unlinked made [] names

theorem editScript_text {fs after : FileSystem Bytes} {f0d : Location}
    (unlinked : Unlinked fs f0d initRcNames) (edited : editScript fs f0d = .ok after) :
    fs.node (place f0d initRcNames) = none ∧ after = fs ∨
      ∃ raw c, fs.node (place f0d initRcNames) = some (.file raw) ∧ decodeText raw = some c ∧
        after.node = Function.update fs.node (place f0d initRcNames)
          (some (.file (encodeUtf8 (String.ofList (editText c))))) := by
  unfold editScript at edited
  split at edited
  · right
    obtain ⟨c, read, wrote⟩ := except_bind_eq_ok edited
    unfold readText readTextFile at read
    split at read
    · contradiction
    · rename_i raw opened
      split at read
      · rename_i text decoded
        cases read
        refine ⟨raw, c, (unlinked.stat_iff true).mp opened, decoded, ?_⟩
        exact (writeFile_ok unlinked (mapError_eq_ok.mp wrote)).2
      · contradiction
    · contradiction
  · rename_i absent
    cases edited
    exact .inl ⟨not_not.mp fun present => absent (unlinked.exists_iff.mpr present), rfl⟩

section

variable {tools : Tools} {stkFrags ciFrags : List Bytes} {fs after : FileSystem Bytes}
    {tmpdir : Location}

theorem apart_f0d_ciF1d (tmpdir : Location) : Apart (f0d tmpdir) (ciF1d tmpdir) where
  firstOutside := sibling_outside (by decide) []
  secondOutside := sibling_outside (by decide) []

theorem Apart.symm {first second : Location} (apart : Apart first second) : Apart second first :=
  ⟨apart.secondOutside, apart.firstOutside⟩

/-- A tree with the stock tree and the CI tree in the directory. -/
structure BothTrees (tmpdir : Location) (fs stock ci both : FileSystem Bytes) : Prop where
  stockNode : ∀ names, both.node (place (f0d tmpdir) names) = stock.node (place [] names)
  ciNode : ∀ names, both.node (place (ciF1d tmpdir) names) = ci.node (place [] names)
  outside : ∀ place, ¬ f0d tmpdir <:+ place → ¬ ciF1d tmpdir <:+ place →
    both.node place = fs.node place

theorem BothTrees.of_planted {stock ci withStock both : FileSystem Bytes}
    (first : Planted (f0d tmpdir) fs stock withStock)
    (second : Planted (ciF1d tmpdir) withStock ci both) : BothTrees tmpdir fs stock ci both where
  stockNode := by
    intro names
    rw [second.outside _ ((apart_f0d_ciF1d tmpdir).symm.outside names), first.node_place]
  ciNode := second.node_place
  outside := fun place offStock offCi =>
    (second.outside place offCi).trans (first.outside place offStock)

theorem BothTrees.unlinked {stock ci both : FileSystem Bytes}
    (trees : BothTrees tmpdir fs stock ci both) {names : List Name}
    (plain : Unlinked stock [] names) : Unlinked both (f0d tmpdir) names := by
  intro front within target
  rw [trees.stockNode]
  exact plain front within target

theorem BothTrees.f0Unlinked {stock ci both : FileSystem Bytes}
    (trees : BothTrees tmpdir fs stock ci both) (unlinked : F0TreesUnlinked stock ci) :
    F0Unlinked both (f0d tmpdir) (ciF1d tmpdir) where
  recovery := trees.unlinked unlinked.recovery
  res := trees.unlinked unlinked.res
  libs := by
    intro lib member
    refine ⟨fun front within target => ?_, trees.unlinked (unlinked.targets lib member)⟩
    rw [trees.ciNode]
    exact unlinked.sources lib member front within target
  script := trees.unlinked unlinked.script

/-- `recovery` and `res` are gone. -/
def Cleared (f0d : Location) (before after : FileSystem Bytes) : Prop :=
  ∀ other, after.node other =
    if place f0d recoveryNames <:+ other ∨ place f0d resNames <:+ other then none
    else before.node other

theorem cleared_of_removals {f0d : Location} {withoutRecovery : FileSystem Bytes}
    (recovery : Unlinked fs f0d recoveryNames) (res : Unlinked fs f0d resNames)
    (first : removePath fs f0d (.ofNames recoveryNames) = .ok withoutRecovery)
    (second : removePath withoutRecovery f0d (.ofNames resNames) = .ok after) :
    Cleared f0d fs after := by
  have recoveryGone := removePath_without recovery (by decide) first
  have resGone := removePath_without (res.of_noNewLinks recoveryGone.noNewLinks) (by decide) second
  intro other
  rw [resGone other]
  by_cases inRes : place f0d resNames <:+ other
  · rw [if_pos inRes, if_pos (.inr inRes)]
  · rw [if_neg inRes, recoveryGone other]
    simp only [inRes, or_false]

theorem Cleared.outside {f0d : Location} (cleared : Cleared f0d fs after) {other : Location}
    (off : ¬ f0d <:+ other) : after.node other = fs.node other := by
  rw [cleared other, if_neg]
  exact fun below => off (below.elim ((suffix_place _ _).trans ·) ((suffix_place _ _).trans ·))

theorem Cleared.noNewLinks {f0d : Location} (cleared : Cleared f0d fs after) :
    NoNewLinks fs after := by
  intro other target found
  rw [cleared other] at found
  split at found
  · cases found
  · exact found

/-- It makes no difference whether the CI tree is extracted in front of the removals. -/
theorem Cleared.planted {f0d ciF1d : Location} (apart : Apart f0d ciF1d)
    {withoutRes withCi before ci : FileSystem Bytes} (cleared : Cleared f0d fs withoutRes)
    (late : Planted ciF1d withoutRes ci withCi) (early : Planted ciF1d fs ci before) :
    Cleared f0d before withCi := by
  intro other
  by_cases inCi : ciF1d <:+ other
  · obtain ⟨inner, rfl⟩ := inCi
    rw [late.inside, early.inside, if_neg]
    intro below
    have inF0 : f0d <:+ inner ++ ciF1d :=
      below.elim ((suffix_place _ _).trans ·) ((suffix_place _ _).trans ·)
    rcases List.suffix_or_suffix_of_suffix inF0 (List.suffix_append inner ciF1d) with into | into
    · exact apart.firstOutside into
    · exact apart.secondOutside into
  · rw [late.outside other inCi, cleared other, early.outside other inCi]

/-- The passes of the step are those on a tree that has both trees from the start. -/
theorem makeF0_passes (directory : fs.node tmpdir = some .directory)
    (free : ∀ name, fs.node (name :: tmpdir) = none)
    (made : makeF0 tools tmpdir stkFrags ciFrags fs = .ok after) :
    ∃ stkF0 ciF1 stock ci, fragment stkFrags 0 = .ok stkF0 ∧ fragment ciFrags 1 = .ok ciF1 ∧
      tools.stock.unpacked stkF0 = .ok stock ∧ tools.ci.unpacked ciF1 = .ok ci ∧
      (F0TreesUnlinked stock ci → ∃ both withDirectories withLibs,
        BothTrees tmpdir fs stock ci both ∧
        F0Passes (f0d tmpdir) (ciF1d tmpdir) both withDirectories withLibs ∧
        editScript withLibs (f0d tmpdir) = .ok after) := by
  unfold makeF0 at made
  obtain ⟨stkF0, stkFound, made⟩ := except_bind_eq_ok made
  obtain ⟨withStock, extracted, made⟩ := except_bind_eq_ok made
  obtain ⟨withoutRecovery, first, made⟩ := except_bind_eq_ok made
  obtain ⟨withoutRes, second, made⟩ := except_bind_eq_ok made
  obtain ⟨ciF1, ciFound, made⟩ := except_bind_eq_ok made
  obtain ⟨withCi, extractedCi, made⟩ := except_bind_eq_ok made
  obtain ⟨withDirectories, third, made⟩ := except_bind_eq_ok made
  obtain ⟨withLibs, fourth, edited⟩ := except_bind_eq_ok made
  rw [mapError_eq_ok] at extracted first second extractedCi third fourth edited
  obtain ⟨stock, unpackedStock, plantedStock⟩ := decompressFragment_planted extracted
  obtain ⟨ci, unpackedCi, plantedCi⟩ := decompressFragment_planted extractedCi
  refine ⟨stkF0, ciF1, stock, ci, stkFound, ciFound, unpackedStock, unpackedCi, fun unlinked => ?_⟩
  have apart := apart_f0d_ciF1d tmpdir
  have planted : Planted (f0d tmpdir) fs stock withStock := plantedStock directory (free _)
  have cleared := cleared_of_removals (planted.unlinked unlinked.recovery)
    (planted.unlinked unlinked.res) first second
  have inside : withStock.node tmpdir = some .directory := by
    rw [planted.outside tmpdir (not_suffix_tail tmpdir), directory]
  have ciFree : withoutRes.node (ciF1d tmpdir) = none := by
    rw [cleared.outside apart.firstOutside, planted.outside _ apart.firstOutside]
    exact free _
  have late : Planted (ciF1d tmpdir) withoutRes ci withCi :=
    plantedCi (by rw [cleared.outside (not_suffix_tail tmpdir), inside]) ciFree
  have early : ∃ before, extractInto withStock ci tmpdir "_ci_f1" = .ok before ∧
      Planted (ciF1d tmpdir) withStock ci before := extractInto_planted inside fun _ _ => rfl
  obtain ⟨both, _, early⟩ := early
  have trees := BothTrees.of_planted planted early
  have bothUnlinked := trees.f0Unlinked unlinked
  have clearedCi := cleared.planted apart late early
  have twrp16Unlinked : Unlinked both (f0d tmpdir) twrp16Names :=
    (bothUnlinked.libs "libbase.so" (by decide)).targetDirect.prefix_of (List.prefix_append _ _)
  have directories := makedirs_ok (twrp16Unlinked.of_noNewLinks clearedCi.noNewLinks) third
  have copied := copyLibs_ok apart (by decide)
    (fun lib member => (bothUnlinked.libs lib member).of_noNewLinks
      (clearedCi.noNewLinks.trans directories.noNewLinks)) fourth
  exact ⟨both, withDirectories, withLibs, trees, ⟨⟨withCi, directories, clearedCi⟩, copied⟩, edited⟩

/-- A library is there when it was, or when the CI tree has it. -/
theorem F0Passes.library {both withDirectories withLibs : FileSystem Bytes}
    (passes : F0Passes (f0d tmpdir) (ciF1d tmpdir) both withDirectories withLibs)
    (unlinked : F0Unlinked both (f0d tmpdir) (ciF1d tmpdir)) {lib : Name}
    (member : lib ∈ twrp16Libs) :
    withLibs.node (place (f0d tmpdir) (twrp16LibNames lib)) ≠ none ↔
      InCi both (ciF1d tmpdir) lib ∨
        both.node (place (f0d tmpdir) (twrp16LibNames lib)) ≠ none := by
  have apart := apart_f0d_ciF1d tmpdir
  by_cases inCi : InCi both (ciF1d tmpdir) lib
  · obtain ⟨data, _, copied⟩ := passes.copied_withLibs apart unlinked member inCi
    have present : withLibs.node (place (f0d tmpdir) (twrp16LibNames lib)) ≠ none := by
      rcases libTargetNames_cases both (f0d tmpdir) lib with direct | inside
      · rw [direct] at copied
        rw [copied]
        simp
      · rw [inside, place_concat] at copied
        rw [withLibs.parents lib _ (by rw [copied]; simp)]
        simp
    exact iff_of_true present (.inl inCi)
  · obtain ⟨notRecovery, notRes, notDirectory⟩ := twrp16LibNames_apart lib
    rw [passes.same_withLibs apart unlinked,
      passes.same_withDirectories notRecovery notRes fun front => notDirectory front.2,
      or_iff_right inCi]
    intro other _ present equal
    by_cases sameLib : other = lib
    · exact inCi (sameLib ▸ present)
    · exact (libTargetNames_ne both both (f0d tmpdir) sameLib).1 equal.symm

theorem subtreeAt_eq_ok {tree : FileSystem Bytes} {location : Location}
    (read : subtreeAt fs location = .ok tree) (names : List Name) :
    tree.node (place [] names) = fs.node (place location names) := by
  unfold RepackF1.subtreeAt at read
  split at read
  · cases read
    simp [place]
  · cases read
  · cases read

/-- What is packed, from the trees that were extracted. -/
theorem makeF0_made (directory : fs.node tmpdir = some .directory)
    (free : ∀ name, fs.node (name :: tmpdir) = none)
    (made : makeF0 tools tmpdir stkFrags ciFrags fs = .ok after) :
    ∃ stkF0 ciF1 stock ci, fragment stkFrags 0 = .ok stkF0 ∧ fragment ciFrags 1 = .ok ciF1 ∧
      tools.stock.unpacked stkF0 = .ok stock ∧ tools.ci.unpacked ciF1 = .ok ci ∧
      (F0TreesUnlinked stock ci → ∀ tree, subtreeAt after (f0d tmpdir) = .ok tree →
        F0Made stock ci tree) := by
  obtain ⟨stkF0, ciF1, stock, ci, stkFound, ciFound, unpackedStock, unpackedCi, passed⟩ :=
    makeF0_passes directory free made
  refine ⟨stkF0, ciF1, stock, ci, stkFound, ciFound, unpackedStock, unpackedCi, ?_⟩
  intro unlinked tree read
  obtain ⟨both, withDirectories, withLibs, trees, passes, edited⟩ := passed unlinked
  have apart := apart_f0d_ciF1d tmpdir
  have bothUnlinked := trees.f0Unlinked unlinked
  have kept := passes.noNewLinks_withLibs
  have written := editScript_text (bothUnlinked.script.of_noNewLinks kept) edited
  rw [passes.script_withLibs apart bothUnlinked, trees.stockNode] at written
  have same : ∀ names, names ≠ initRcNames →
      tree.node (place [] names) = withLibs.node (place (f0d tmpdir) names) := by
    intro names elsewhere
    rw [subtreeAt_eq_ok read]
    rcases written with absent | text
    · rw [absent.2]
    · obtain ⟨raw, c, _, _, update⟩ := text
      rw [update, Function.update_of_ne fun equal => elsewhere (place_inj.mp equal)]
  constructor
  · rw [same _ (by decide), passes.removed_withLibs apart bothUnlinked (.inl (List.prefix_refl _))]
  · rw [same _ (by decide), passes.removed_withLibs apart bothUnlinked (.inr (List.prefix_refl _))]
  · intro lib member
    have notScript : twrp16LibNames lib ≠ initRcNames := by
      simp [twrp16LibNames, twrp16Names, initRcNames]
    rw [same _ notScript, passes.library bothUnlinked member, InCi, trees.ciNode, trees.stockNode]
  · intro data
    rw [subtreeAt_eq_ok read]
    rcases written with absent | text
    · obtain ⟨missing, rfl⟩ := absent
      rw [passes.script_withLibs apart bothUnlinked, trees.stockNode, missing]
      simp
    · obtain ⟨raw, c, found, decoded, update⟩ := text
      rw [update, Function.update_self, Option.some.injEq, Node.file.injEq]
      constructor
      · intro written
        exact ⟨raw, c, found, decoded, written.symm⟩
      · intro again
        obtain ⟨rawAgain, cAgain, foundAgain, decodedAgain, rfl⟩ := again
        rw [found] at foundAgain
        cases foundAgain
        rw [decoded] at decodedAgain
        cases decodedAgain
        rfl
  · intro names plain front within target
    rw [subtreeAt_eq_ok read]
    have editKept : NoNewLinks withLibs after := by
      rcases written with absent | text
      · rw [absent.2]
        exact .refl _
      · obtain ⟨raw, c, _, _, update⟩ := text
        exact noNewLinks_update update (by simp)
    exact (trees.unlinked plain).of_noNewLinks (kept.trans editKept) front within target

end

end DashTwrp.PrepareFragments
