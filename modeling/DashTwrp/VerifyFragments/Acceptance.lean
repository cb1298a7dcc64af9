import DashTwrp.VerifyFragments.Run

namespace DashTwrp.VerifyFragments

open DashTwrp.Python DashTwrp.Unix DashTwrp.InitRc
open DashTwrp.PrepareFragments (recoveryNames resNames initRcNames twrp16LibNames)
open DashTwrp.RepackF1 (readFile)

/-! What a fragment must be for the checks to accept it. -/

/-- No path of the checks has a link on it. -/
structure F0Unlinked (fs : FileSystem Bytes) (root : Location) : Prop where
  recovery : Unlinked fs root recoveryNames
  res : Unlinked fs root resNames
  libs : ∀ lib ∈ checkedLibs, Unlinked fs root (twrp16LibNames lib)
  script : Unlinked fs root initRcNames

/-- The checks, by the nodes of the tree. -/
structure F0Accepted (fs : FileSystem Bytes) (root : Location) : Prop where
  noRecovery : fs.node (place root recoveryNames) = none
  noRes : fs.node (place root resNames) = none
  libs : ∀ lib ∈ checkedLibs, fs.node (place root (twrp16LibNames lib)) ≠ none
  script : ∃ raw content, fs.node (place root initRcNames) = some (.file raw) ∧
    decodeText raw = some content ∧ libraryPathText <:+: content ∧ twrp16Text <:+: content

variable {fs : FileSystem Bytes} {root : Location}

theorem absent_iff {names : List Name} (unlinked : Unlinked fs root names) :
    fs.pathExists root (.ofNames names) = false ↔ fs.node (place root names) = none := by
  rw [← not_iff_not, Bool.not_eq_false]
  exact unlinked.exists_iff

/-- The directory of the libraries is there with any of them. -/
theorem F0Accepted.checks (accepted : F0Accepted fs root) (unlinked : F0Unlinked fs root) :
    ∀ check ∈ f0Checks, fs.pathExists root check.1 = check.2 := by
  have libThere (lib : Name) (member : lib ∈ checkedLibs) :
      fs.pathExists root (libPath lib) = true :=
    (unlinked.libs lib member).exists_iff.mpr (accepted.libs lib member)
  intro check member
  simp only [f0Checks, List.cons_append, List.mem_cons, List.mem_append, List.mem_map,
    List.not_mem_nil, or_false] at member
  rcases member with rfl | libOrPath
  · have inside := accepted.libs "libbase.so" (by decide)
    have path : twrp16LibNames "libbase.so" = ["system", "lib64", "twrp16"] ++ ["libbase.so"] := rfl
    rw [path] at inside
    refine (unlinked_above inside).exists_iff.mpr ?_
    rw [place_concat] at inside
    rw [fs.parents _ _ inside]
    simp
  · rcases libOrPath with lib | rfl | rfl | rfl
    · obtain ⟨lib, member, rfl⟩ := lib
      exact libThere lib member
    · obtain ⟨raw, content, found, _⟩ := accepted.script
      exact unlinked.script.exists_iff.mpr (by rw [found]; simp)
    · exact (absent_iff unlinked.recovery).mpr accepted.noRecovery
    · exact (absent_iff unlinked.res).mpr accepted.noRes

theorem verifyF0Tree_accepts_iff (unlinked : F0Unlinked fs root) :
    verifyF0Tree fs root = .ok true ↔ F0Accepted fs root := by
  constructor
  · intro accepted
    have checks := verifyF0Tree_checks accepted
    have present : fs.pathExists root initRcPath = true :=
      checks (initRcPath, true) (by simp [f0Checks])
    refine ⟨(absent_iff unlinked.recovery).mp (checks (recoveryPath, false) (by simp [f0Checks])),
      (absent_iff unlinked.res).mp (checks (resPath, false) (by simp [f0Checks])), ?_, ?_⟩
    · intro lib member
      exact (unlinked.libs lib member).exists_iff.mp (checks (libPath lib, true)
        (List.mem_cons_of_mem _ (List.mem_append_left _ (List.mem_map_of_mem member))))
    · obtain ⟨content, read, texts⟩ := verifyF0Tree_content accepted
      unfold readText readTextFile at read
      split at read
      · cases read
      · rename_i raw opened
        split at read
        · rename_i text decoded
          cases read
          exact ⟨raw, content, (unlinked.script.stat_iff true).mp opened, decoded, texts⟩
        · cases read
      · cases read
  · intro accepted
    have checks := accepted.checks unlinked
    have all : (f0Checks.all fun check => fs.pathExists root check.1 == check.2) = true :=
      List.all_eq_true.mpr fun check member => beq_iff_eq.mpr (checks check member)
    obtain ⟨raw, content, found, decoded, texts⟩ := accepted.script
    have read : readText fs root initRcPath = .ok content := by
      have opened : fs.stat true root initRcPath = .ok (.file raw) :=
        (unlinked.script.stat_iff true).mpr found
      rw [readText, readTextFile, opened]
      simp only [decoded]
    rw [verifyF0Tree, if_pos (checks (initRcPath, true) (by simp [f0Checks])), read]
    change (if _ then pure (f0Checks.all fun check => fs.pathExists root check.1 == check.2)
      else pure false) = _
    rw [if_pos texts, all]
    rfl

/-- The nodes of a tree that was extracted are those of the tree. -/
theorem f0Accepted_planted {before tree after : FileSystem Bytes}
    (planted : Planted root before tree after) : F0Accepted after root ↔ F0Accepted tree [] := by
  constructor
  · intro accepted
    obtain ⟨noRecovery, noRes, libs, script⟩ := accepted
    simp only [planted.node_place] at noRecovery noRes libs script
    exact ⟨noRecovery, noRes, libs, script⟩
  · intro accepted
    obtain ⟨noRecovery, noRes, libs, script⟩ := accepted
    simp only [← planted.node_place] at noRecovery noRes libs script
    exact ⟨noRecovery, noRes, libs, script⟩

theorem F0Unlinked.planted {before tree after : FileSystem Bytes}
    (unlinked : F0Unlinked tree []) (planted : Planted root before tree after) :
    F0Unlinked after root :=
  ⟨planted.unlinked unlinked.recovery, planted.unlinked unlinked.res,
    fun lib member => planted.unlinked (unlinked.libs lib member),
    planted.unlinked unlinked.script⟩

/-! ### From the file to the verdict -/

section

variable {unpacker : Unpacker} {fs after left : FileSystem Bytes} {tmpdir start : Location}
    {dest : Name} {fragPath : PurePath} {data : Bytes}
    {check : FileSystem Bytes → Location → Except VerifyError Bool}

theorem decompressFragment_eq_ok {extracted : Bool} (inside : fs.node tmpdir = some .directory)
    (free : fs.node (dest :: tmpdir) = none)
    (made : decompressFragment unpacker fs data tmpdir dest = .ok (extracted, after)) :
    (∀ place, ¬ dest :: tmpdir <:+ place → after.node place = fs.node place) ∧
      (extracted = true → ∃ tree, unpacker.Unpacks data tree ∧
        Planted (dest :: tmpdir) fs tree after) := by
  obtain ⟨cleared, emptied, removes, makes, planted⟩ := emptied_planted inside (.inl free)
  have emptiedInside : emptied.node tmpdir = some .directory := by
    rw [planted.outside tmpdir (not_suffix_tail tmpdir), inside]
  unfold decompressFragment at made
  obtain ⟨first, removesAs, made⟩ := except_bind_eq_ok made
  obtain rfl := Except.ok.inj (removes.symm.trans removesAs)
  obtain ⟨second, makesAs, made⟩ := except_bind_eq_ok made
  obtain rfl := Except.ok.inj (makes.symm.trans makesAs)
  obtain ⟨r, decoded, made⟩ := except_bind_eq_ok made
  split at made
  · cases made
    exact ⟨planted.outside, fun failed => by cases failed⟩
  · rename_i zero
    obtain ⟨p, listed, made⟩ := except_bind_eq_ok made
    obtain ⟨grafted, extracts, made⟩ := except_bind_eq_ok made
    cases made
    have plantedTree : ∃ result, extractInto emptied p.2 tmpdir dest = .ok result ∧
        Planted (dest :: tmpdir) fs p.2 result := extractInto_planted emptiedInside planted.outside
    obtain ⟨result, extractsAs, plantedTree⟩ := plantedTree
    obtain rfl := Except.ok.inj (extractsAs.symm.trans extracts)
    refine ⟨plantedTree.outside, fun succeeded => ⟨p.2, ⟨r.2, ?_, ?_⟩, plantedTree⟩⟩
    · rw [decoded, ← not_not.mp zero]
    · rw [listed, ← beq_iff_eq.mp succeeded]

theorem decompressFragment_unpacks {tree : FileSystem Bytes}
    (inside : fs.node tmpdir = some .directory) (free : fs.node (dest :: tmpdir) = none)
    (unpacks : unpacker.Unpacks data tree) : ∃ after,
      decompressFragment unpacker fs data tmpdir dest = .ok (true, after) ∧
        Planted (dest :: tmpdir) fs tree after := by
  obtain ⟨cleared, emptied, removes, makes, planted⟩ := emptied_planted inside (.inl free)
  obtain ⟨archive, decoded, listed⟩ := unpacks
  have emptiedInside : emptied.node tmpdir = some .directory := by
    rw [planted.outside tmpdir (not_suffix_tail tmpdir), inside]
  have extracts : ∃ after, extractInto emptied tree tmpdir dest = .ok after ∧
      Planted (dest :: tmpdir) fs tree after := extractInto_planted emptiedInside planted.outside
  obtain ⟨after, extracts, plantedTree⟩ := extracts
  refine ⟨after, ?_, plantedTree⟩
  rw [decompressFragment, removes]
  change (makedirs false cleared tmpdir (.ofNames [dest]) >>= _) = _
  rw [makes]
  change (unpacker.lz4 data >>= _) = _
  rw [decoded]
  change (unpacker.cpio archive >>= _) = _
  rw [listed]
  change (extractInto emptied tree tmpdir dest >>= _) = _
  rw [extracts]
  rfl

theorem rmtreeIgnore_node {fs : FileSystem Bytes} {tmpdir : Location} (inner : tmpdir ≠ [])
    (other : Location) :
    (rmtreeIgnore fs tmpdir).node other = if tmpdir <:+ other then none else fs.node other := by
  rw [rmtreeIgnore, dif_pos inner]
  rfl

/-- What a run of the checks has found, and that it leaves everything as it was. -/
theorem verifyFragment_eq_ok {accepted : Bool}
    (verified : verifyFragment unpacker fs tmpdir start fragPath check dest =
      .ok (accepted, left)) :
    left = fs ∧ ∃ data, readFile fs start fragPath = .ok data ∧
      (accepted = true → ∃ tree made planted, unpacker.Unpacks data tree ∧
        Planted (dest :: tmpdir) made tree planted ∧ check planted (dest :: tmpdir) = .ok true) := by
  unfold verifyFragment at verified
  obtain ⟨data, read, verified⟩ := except_bind_eq_ok verified
  obtain ⟨made, makes, verified⟩ := except_bind_eq_ok verified
  obtain ⟨⟨extracted, planted⟩, extracts, verified⟩ := except_bind_eq_ok verified
  obtain ⟨allOk, checked, verified⟩ := except_bind_eq_ok verified
  obtain ⟨rfl, rfl⟩ := Prod.mk.inj (Except.ok.inj verified)
  obtain ⟨free, madeEmpty⟩ := mkdtemp_ok (mapError_eq_ok.mp makes)
  have inner : tmpdir ≠ [] := by
    rintro rfl
    rw [fs.root] at free
    cases free
  obtain ⟨madeInside, madeFree⟩ := madeEmpty.emptied
  obtain ⟨outside, extractedTree⟩ :=
    decompressFragment_eq_ok madeInside (madeFree dest) (mapError_eq_ok.mp extracts)
  constructor
  · apply FileSystem.ext
    funext other
    rw [rmtreeIgnore_node inner]
    by_cases below : tmpdir <:+ other
    · rw [if_pos below]
      exact (without_of_absent free other).symm ▸ (if_pos below).symm
    · rw [if_neg below, outside other fun under => below ((List.suffix_cons _ _).trans under),
        madeEmpty.outside other below]
  · refine ⟨data, mapError_eq_ok.mp read, fun accepts => ?_⟩
    cases extracted with
    | false =>
        cases checked
        cases accepts
    | true =>
        obtain ⟨tree, unpacks, plantedTree⟩ := extractedTree rfl
        rw [accepts] at checked
        exact ⟨tree, made, planted, unpacks, plantedTree, mapError_eq_ok.mp checked⟩

/-- A fragment that can be unpacked to an acceptable tree is accepted. -/
theorem verifyFragment_accepts {made tree : FileSystem Bytes}
    (makes : mkdtemp fs tmpdir = .ok made)
    (read : readFile fs start fragPath = .ok data) (unpacks : unpacker.Unpacks data tree)
    (checks : ∀ made planted, Planted (dest :: tmpdir) made tree planted →
      check planted (dest :: tmpdir) = .ok true) :
    verifyFragment unpacker fs tmpdir start fragPath check dest = .ok (true, fs) := by
  obtain ⟨_, madeEmpty⟩ := mkdtemp_ok makes
  obtain ⟨madeInside, madeFree⟩ := madeEmpty.emptied
  obtain ⟨planted, extracts, plantedTree⟩ := 
    decompressFragment_unpacks madeInside (madeFree dest) unpacks
  have verified : verifyFragment unpacker fs tmpdir start fragPath check dest =
      .ok (true, rmtreeIgnore planted tmpdir) := by
    rw [verifyFragment, read]
    change ((mkdtemp fs tmpdir).mapError RunError.os >>= _) = _
    rw [makes]
    change ((decompressFragment unpacker made data tmpdir dest).mapError RunError.os >>=
      _) = _
    rw [extracts]
    change ((check planted (dest :: tmpdir)).mapError RunError.tree >>= _) = _
    rw [checks made planted plantedTree]
    rfl
  rw [verified, (verifyFragment_eq_ok verified).1]

end

end DashTwrp.VerifyFragments
