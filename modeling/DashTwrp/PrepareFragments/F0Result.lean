import DashTwrp.PrepareFragments.F0Steps

namespace DashTwrp.PrepareFragments

open DashTwrp.Python DashTwrp.Unix DashTwrp.InitRc

/-! What the F0 step changes in the stock tree, and that it does so only once. -/

/-- No path that the step reads or writes has a link on it. -/
structure F0Unlinked (fs : FileSystem Bytes) (f0d ciF1d : Location) : Prop where
  recovery : Unlinked fs f0d recoveryNames
  res : Unlinked fs f0d resNames
  libs : ∀ lib ∈ twrp16Libs, LibUnlinked fs ciF1d f0d lib
  script : Unlinked fs f0d initRcNames

theorem F0Unlinked.of_noNewLinks {fs after : FileSystem Bytes} {f0d ciF1d : Location}
    (unlinked : F0Unlinked fs f0d ciF1d) (kept : NoNewLinks fs after) :
    F0Unlinked after f0d ciF1d where
  recovery := unlinked.recovery.of_noNewLinks kept
  res := unlinked.res.of_noNewLinks kept
  libs := fun lib member => (unlinked.libs lib member).of_noNewLinks kept
  script := unlinked.script.of_noNewLinks kept

/-- The library is in the CI tree. -/
def InCi (fs : FileSystem Bytes) (ciF1d : Location) (lib : Name) : Prop :=
  fs.node (place ciF1d (ciLibNames lib)) ≠ none

/-- What the step may change below `f0d`. -/
def F0Changes (fs : FileSystem Bytes) (f0d ciF1d : Location) (names : List Name) : Prop :=
  recoveryNames <+: names ∨ resNames <+: names ∨ (names ≠ [] ∧ names <+: twrp16Names) ∨
    (∃ lib ∈ twrp16Libs, InCi fs ciF1d lib ∧ names = libTargetNames fs f0d lib) ∨
      names = initRcNames

/-- The tree after the step, and that a second one leaves it so. -/
structure F0Result (f0d ciF1d : Location) (before after : FileSystem Bytes) : Prop where
  outside : ∀ other, ¬ f0d <:+ other → after.node other = before.node other
  unchanged : ∀ names, ¬ F0Changes before f0d ciF1d names →
    after.node (place f0d names) = before.node (place f0d names)
  removed : ∀ names, recoveryNames <+: names ∨ resNames <+: names →
    after.node (place f0d names) = none
  directories : ∀ front, front ≠ [] → front <+: twrp16Names →
    after.node (place f0d front) = some .directory
  copied : ∀ lib ∈ twrp16Libs, InCi before ciF1d lib →
    ∃ data, before.node (place ciF1d (ciLibNames lib)) = some (.file data) ∧
      after.node (place f0d (libTargetNames before f0d lib)) = some (.file data)
  noScript : before.node (place f0d initRcNames) = none →
    after.node (place f0d initRcNames) = none
  script : ∀ c, before.node (place f0d initRcNames) =
      some (.file (encodeUtf8 (String.ofList c))) →
    ∃ edited, ScriptEdited c edited ∧ after.node (place f0d initRcNames) =
      some (.file (encodeUtf8 (String.ofList edited)))
  again : f0Transform after f0d ciF1d = .ok after

theorem f0Transform_eq_ok {fs after : FileSystem Bytes} {f0d ciF1d : Location}
    (made : f0Transform fs f0d ciF1d = .ok after) :
    ∃ withoutRecovery withoutRes withDirectories withLibs,
      removePath fs f0d (.ofNames recoveryNames) = .ok withoutRecovery ∧
      removePath withoutRecovery f0d (.ofNames resNames) = .ok withoutRes ∧
      makedirs true withoutRes f0d (.ofNames twrp16Names) = .ok withDirectories ∧
      copyLibs withDirectories ciF1d f0d twrp16Libs = .ok withLibs ∧
      editScript withLibs f0d = .ok after := by
  obtain ⟨withoutRecovery, first, made⟩ := except_bind_eq_ok made
  obtain ⟨withoutRes, second, made⟩ := except_bind_eq_ok made
  obtain ⟨withDirectories, third, made⟩ := except_bind_eq_ok made
  obtain ⟨withLibs, fourth, made⟩ := except_bind_eq_ok made
  exact ⟨withoutRecovery, withoutRes, withDirectories, withLibs, mapError_eq_ok.mp first,
    mapError_eq_ok.mp second, mapError_eq_ok.mp third, mapError_eq_ok.mp fourth, made⟩

theorem removePath_without {fs after : FileSystem Bytes} {start : Location} {names : List Name}
    (unlinked : Unlinked fs start names) (nonempty : names ≠ [])
    (removed : removePath fs start (.ofNames names) = .ok after) :
    Without (place start names) fs after := by
  obtain ⟨result, made, without⟩ := removePath_ok unlinked nonempty
  rw [removed] at made
  cases made
  exact without

/-! ### The names of the paths -/

theorem libTargetNames_apart (fs : FileSystem Bytes) (f0d : Location) (lib : Name) :
    ¬ recoveryNames <+: libTargetNames fs f0d lib ∧ ¬ resNames <+: libTargetNames fs f0d lib ∧
      ¬ libTargetNames fs f0d lib <+: twrp16Names ∧ libTargetNames fs f0d lib ≠ initRcNames := by
  cases libTargetNames_cases fs f0d lib with
  | inl direct =>
      simp [direct, twrp16LibNames, twrp16Names, recoveryNames, resNames, initRcNames]
  | inr inside =>
      simp [inside, twrp16LibNames, twrp16Names, recoveryNames, resNames, initRcNames]

theorem twrp16LibNames_apart (lib : Name) :
    ¬ recoveryNames <+: twrp16LibNames lib ∧ ¬ resNames <+: twrp16LibNames lib ∧
      ¬ twrp16LibNames lib <+: twrp16Names := by
  simp [twrp16LibNames, twrp16Names, recoveryNames, resNames]

theorem initRcNames_apart :
    ¬ recoveryNames <+: initRcNames ∧ ¬ resNames <+: initRcNames ∧
      ¬ initRcNames <+: twrp16Names := by decide

/-! ### From pass to pass -/

/-- What the passes in front of the edit leave. -/
structure F0Passes (f0d ciF1d : Location) (before withDirectories withLibs :
    FileSystem Bytes) : Prop where
  cleared : ∃ cleared, WithDirectories f0d twrp16Names cleared withDirectories ∧
    ∀ other, cleared.node other =
      if place f0d recoveryNames <:+ other ∨ place f0d resNames <:+ other then none
      else before.node other
  libs : LibsCopied ciF1d f0d twrp16Libs withDirectories withLibs

namespace F0Passes

variable {f0d ciF1d : Location} {before withDirectories withLibs : FileSystem Bytes}

theorem same_withDirectories (passes : F0Passes f0d ciF1d before withDirectories withLibs)
    {names : List Name} (notRecovery : ¬ recoveryNames <+: names) (notRes : ¬ resNames <+: names)
    (notDirectory : ¬ (names ≠ [] ∧ names <+: twrp16Names)) :
    withDirectories.node (place f0d names) = before.node (place f0d names) := by
  obtain ⟨cleared, directories, removed⟩ := passes.cleared
  rw [directories.same, removed, if_neg]
  · rw [place_suffix_place, place_suffix_place]
    exact fun below => below.elim notRecovery notRes
  · intro front nonempty inside equal
    rw [place_inj.mp equal] at notDirectory
    exact notDirectory ⟨nonempty, inside⟩

theorem outside_withDirectories (passes : F0Passes f0d ciF1d before withDirectories withLibs)
    {other : Location} (outside : ¬ f0d <:+ other) :
    withDirectories.node other = before.node other := by
  obtain ⟨cleared, directories, removed⟩ := passes.cleared
  rw [directories.same, removed, if_neg]
  · intro below
    exact outside (below.elim ((suffix_place _ _).trans ·) ((suffix_place _ _).trans ·))
  · intro front _ _ equal
    exact outside (equal ▸ suffix_place f0d front)

theorem ciLib_same (passes : F0Passes f0d ciF1d before withDirectories withLibs)
    (apart : Apart f0d ciF1d) (lib : Name) :
    withDirectories.node (place ciF1d (ciLibNames lib)) =
      before.node (place ciF1d (ciLibNames lib)) :=
  passes.outside_withDirectories (apart.outside (ciLibNames lib))

theorem noNewLinks_withDirectories
    (passes : F0Passes f0d ciF1d before withDirectories withLibs) :
    NoNewLinks before withDirectories := by
  obtain ⟨cleared, directories, removed⟩ := passes.cleared
  refine NoNewLinks.trans ?_ directories.noNewLinks
  intro other target found
  rw [removed] at found
  split at found
  · cases found
  · exact found

theorem noNewLinks_withLibs (passes : F0Passes f0d ciF1d before withDirectories withLibs) :
    NoNewLinks before withLibs :=
  passes.noNewLinks_withDirectories.trans passes.libs.noNewLinks

theorem libTarget_same (passes : F0Passes f0d ciF1d before withDirectories withLibs)
    (unlinked : F0Unlinked before f0d ciF1d) {lib : Name} (member : lib ∈ twrp16Libs) :
    libTargetNames withDirectories f0d lib = libTargetNames before f0d lib := by
  have direct := (unlinked.libs lib member).targetDirect
  obtain ⟨notRecovery, notRes, notDirectory⟩ := twrp16LibNames_apart lib
  apply libTargetNames_congr (direct.of_noNewLinks passes.noNewLinks_withDirectories) direct
  rw [passes.same_withDirectories notRecovery notRes fun front => notDirectory front.2]

/-- Away from the copies the libraries' pass changes nothing. -/
theorem same_withLibs (passes : F0Passes f0d ciF1d before withDirectories withLibs)
    (apart : Apart f0d ciF1d) (unlinked : F0Unlinked before f0d ciF1d) {names : List Name}
    (noCopy : ∀ lib ∈ twrp16Libs, InCi before ciF1d lib → names ≠ libTargetNames before f0d lib) :
    withLibs.node (place f0d names) = withDirectories.node (place f0d names) := by
  apply passes.libs.same
  intro lib member present equal
  rw [passes.ciLib_same apart] at present
  rw [passes.libTarget_same unlinked member, place_inj] at equal
  exact noCopy lib member present equal

theorem outside_withLibs (passes : F0Passes f0d ciF1d before withDirectories withLibs)
    {other : Location} (outside : ¬ f0d <:+ other) :
    withLibs.node other = before.node other := by
  rw [passes.libs.same, passes.outside_withDirectories outside]
  intro lib _ _ equal
  exact outside (equal ▸ suffix_place f0d _)

theorem removed_withLibs (passes : F0Passes f0d ciF1d before withDirectories withLibs)
    (apart : Apart f0d ciF1d) (unlinked : F0Unlinked before f0d ciF1d) {names : List Name}
    (below : recoveryNames <+: names ∨ resNames <+: names) :
    withLibs.node (place f0d names) = none := by
  rw [passes.same_withLibs apart unlinked]
  · obtain ⟨cleared, directories, removed⟩ := passes.cleared
    rw [directories.same, removed, if_pos (by rwa [place_suffix_place, place_suffix_place])]
    intro front _ inside equal
    rw [place_inj.mp equal] at below
    have notBelow : ¬ (recoveryNames <+: twrp16Names ∨ resNames <+: twrp16Names) := by decide
    exact notBelow (below.imp (·.trans inside) (·.trans inside))
  · intro lib _ _ equal
    obtain ⟨notRecovery, notRes, _⟩ := libTargetNames_apart before f0d lib
    rw [equal] at below
    exact below.elim notRecovery notRes

theorem directory_withLibs (passes : F0Passes f0d ciF1d before withDirectories withLibs)
    (apart : Apart f0d ciF1d) (unlinked : F0Unlinked before f0d ciF1d) {front : List Name}
    (nonempty : front ≠ []) (inside : front <+: twrp16Names) :
    withLibs.node (place f0d front) = some .directory := by
  rw [passes.same_withLibs apart unlinked]
  · obtain ⟨cleared, directories, _⟩ := passes.cleared
    exact directories.directory front nonempty inside
  · intro lib _ _ equal
    rw [equal] at inside
    exact (libTargetNames_apart before f0d lib).2.2.1 inside

theorem copied_withLibs (passes : F0Passes f0d ciF1d before withDirectories withLibs)
    (apart : Apart f0d ciF1d) (unlinked : F0Unlinked before f0d ciF1d) {lib : Name}
    (member : lib ∈ twrp16Libs) (present : InCi before ciF1d lib) :
    ∃ data, before.node (place ciF1d (ciLibNames lib)) = some (.file data) ∧
      withLibs.node (place f0d (libTargetNames before f0d lib)) = some (.file data) := by
  have source := passes.ciLib_same apart lib
  obtain ⟨data, file⟩ := passes.libs.isFile lib member (by rwa [source])
  have target := passes.libs.copied lib member data file
  rw [passes.libTarget_same unlinked member] at target
  exact ⟨data, source ▸ file, target⟩

/-- A second copy would go where the first one went. -/
theorem libTarget_withLibs (passes : F0Passes f0d ciF1d before withDirectories withLibs)
    (apart : Apart f0d ciF1d) (unlinked : F0Unlinked before f0d ciF1d) {lib : Name}
    (member : lib ∈ twrp16Libs) :
    libTargetNames withLibs f0d lib = libTargetNames before f0d lib := by
  have direct := (unlinked.libs lib member).targetDirect
  apply libTargetNames_congr (direct.of_noNewLinks passes.noNewLinks_withLibs) direct
  by_cases taken : InCi before ciF1d lib ∧
      libTargetNames before f0d lib = twrp16LibNames lib
  · obtain ⟨data, _, copied⟩ := passes.copied_withLibs apart unlinked member taken.1
    rw [taken.2] at copied
    have noDirectory : before.node (place f0d (twrp16LibNames lib)) ≠ some .directory := by
      intro found
      have inside : libTargetNames before f0d lib = twrp16LibNames lib ++ [lib] :=
        if_pos (direct.isDir_iff.mpr found)
      rw [taken.2] at inside
      simp [twrp16LibNames] at inside
    simp [copied, noDirectory]
  · rw [passes.same_withLibs apart unlinked]
    · obtain ⟨notRecovery, notRes, notDirectory⟩ := twrp16LibNames_apart lib
      rw [passes.same_withDirectories notRecovery notRes fun front => notDirectory front.2]
    · intro other _ present equal
      by_cases sameLib : other = lib
      · subst sameLib
        exact taken ⟨present, equal.symm⟩
      · exact (libTargetNames_ne before before f0d sameLib).1 equal.symm

theorem script_withLibs (passes : F0Passes f0d ciF1d before withDirectories withLibs)
    (apart : Apart f0d ciF1d) (unlinked : F0Unlinked before f0d ciF1d) :
    withLibs.node (place f0d initRcNames) = before.node (place f0d initRcNames) := by
  obtain ⟨notRecovery, notRes, notDirectory⟩ := initRcNames_apart
  rw [passes.same_withLibs apart unlinked,
    passes.same_withDirectories notRecovery notRes fun front => notDirectory front.2]
  exact fun lib _ _ equal => (libTargetNames_apart before f0d lib).2.2.2 equal.symm

end F0Passes

theorem f0Passes {fs after : FileSystem Bytes} {f0d ciF1d : Location} (apart : Apart f0d ciF1d)
    (unlinked : F0Unlinked fs f0d ciF1d) (made : f0Transform fs f0d ciF1d = .ok after) :
    ∃ withDirectories withLibs, F0Passes f0d ciF1d fs withDirectories withLibs ∧
      editScript withLibs f0d = .ok after := by
  obtain ⟨withoutRecovery, withoutRes, withDirectories, withLibs, first, second, third, fourth,
    edited⟩ := f0Transform_eq_ok made
  have recoveryGone := removePath_without unlinked.recovery (by decide) first
  have resGone := removePath_without (unlinked.res.of_noNewLinks recoveryGone.noNewLinks)
    (by decide) second
  have kept := recoveryGone.noNewLinks.trans resGone.noNewLinks
  have twrp16Unlinked : Unlinked fs f0d twrp16Names :=
    (unlinked.libs "libbase.so" (by decide)).targetDirect.prefix_of (List.prefix_append _ _)
  have directories := makedirs_ok (twrp16Unlinked.of_noNewLinks kept) third
  have copied := copyLibs_ok apart (by decide)
    (fun lib member => (unlinked.libs lib member).of_noNewLinks
      (kept.trans directories.noNewLinks)) fourth
  refine ⟨withDirectories, withLibs, ⟨⟨withoutRes, directories, ?_⟩, copied⟩, edited⟩
  intro other
  rw [resGone other]
  by_cases inRes : place f0d resNames <:+ other
  · rw [if_pos inRes, if_pos (.inr inRes)]
  · rw [if_neg inRes, recoveryGone other]
    simp only [inRes, or_false]

/-- The step changes nothing where its work is done. -/
theorem f0Transform_settled {fs : FileSystem Bytes} {f0d ciF1d : Location}
    (apart : Apart f0d ciF1d) (unlinked : F0Unlinked fs f0d ciF1d)
    (noRecovery : fs.node (place f0d recoveryNames) = none)
    (noRes : fs.node (place f0d resNames) = none)
    (directory : fs.node (place f0d twrp16Names) = some .directory)
    (copied : ∀ lib ∈ twrp16Libs, InCi fs ciF1d lib →
      ∃ data, fs.node (place ciF1d (ciLibNames lib)) = some (.file data) ∧
        fs.node (place f0d (libTargetNames fs f0d lib)) = some (.file data))
    (script : fs.node (place f0d initRcNames) = none ∨
      ∃ c, '\r' ∉ c ∧ editText c = c ∧
        fs.node (place f0d initRcNames) = some (.file (encodeUtf8 (String.ofList c)))) :
    f0Transform fs f0d ciF1d = .ok fs := by
  have twrp16Unlinked : Unlinked fs f0d twrp16Names :=
    (unlinked.libs "libbase.so" (by decide)).targetDirect.prefix_of (List.prefix_append _ _)
  rw [f0Transform, removePath_absent unlinked.recovery noRecovery]
  change (removePath fs f0d _).mapError _ >>= _ = _
  rw [removePath_absent unlinked.res noRes]
  change (makedirs true fs f0d _).mapError _ >>= _ = _
  rw [makedirs_existing twrp16Unlinked (by decide) directory]
  change (copyLibs fs ciF1d f0d _).mapError _ >>= _ = _
  rw [copyLibs_again apart unlinked.libs copied]
  exact editScript_again unlinked.script script

/-- The result of the step on a stock tree and a CI tree without links on the
paths involved. -/
theorem f0Transform_result {before after : FileSystem Bytes} {f0d ciF1d : Location}
    (apart : Apart f0d ciF1d) (unlinked : F0Unlinked before f0d ciF1d)
    (plain : PlainScript before f0d) (made : f0Transform before f0d ciF1d = .ok after) :
    F0Result f0d ciF1d before after := by
  obtain ⟨withDirectories, withLibs, passes, edited⟩ := f0Passes apart unlinked made
  have scriptBefore := passes.script_withLibs apart unlinked
  have written := editScript_ok (unlinked.script.of_noNewLinks passes.noNewLinks_withLibs)
    (by unfold PlainScript; rw [scriptBefore]; exact plain) edited
  rw [scriptBefore] at written
  have same : ∀ other, other ≠ place f0d initRcNames → after.node other = withLibs.node other := by
    intro other elsewhere
    cases written with
    | inl none => rw [none.2]
    | inr text =>
        obtain ⟨raw, c, _, _, _, update⟩ := text
        rw [update, Function.update_of_ne elsewhere]
  have sameNames : ∀ names, names ≠ initRcNames →
      after.node (place f0d names) = withLibs.node (place f0d names) :=
    fun names elsewhere => same _ fun equal => elsewhere (place_inj.mp equal)
  have outside : ∀ other, ¬ f0d <:+ other → after.node other = before.node other := by
    intro other off
    rw [same other fun equal => off (equal ▸ suffix_place _ _), passes.outside_withLibs off]
  have removed : ∀ names, recoveryNames <+: names ∨ resNames <+: names →
      after.node (place f0d names) = none := by
    intro names below
    rw [sameNames names, passes.removed_withLibs apart unlinked below]
    intro equal
    rw [equal] at below
    exact below.elim initRcNames_apart.1 initRcNames_apart.2.1
  have directories : ∀ front, front ≠ [] → front <+: twrp16Names →
      after.node (place f0d front) = some .directory := by
    intro front nonempty inside
    rw [sameNames front, passes.directory_withLibs apart unlinked nonempty inside]
    intro equal
    rw [equal] at inside
    exact initRcNames_apart.2.2 inside
  have copied : ∀ lib ∈ twrp16Libs, InCi before ciF1d lib →
      ∃ data, before.node (place ciF1d (ciLibNames lib)) = some (.file data) ∧
        after.node (place f0d (libTargetNames before f0d lib)) = some (.file data) := by
    intro lib member present
    rw [sameNames _ (libTargetNames_apart before f0d lib).2.2.2]
    exact passes.copied_withLibs apart unlinked member present
  have ciSame : ∀ lib, after.node (place ciF1d (ciLibNames lib)) =
      before.node (place ciF1d (ciLibNames lib)) :=
    fun lib => outside _ (apart.outside _)
  have links : NoNewLinks before after := by
    refine passes.noNewLinks_withLibs.trans ?_
    cases written with
    | inl none => exact none.2 ▸ .refl _
    | inr text =>
        obtain ⟨raw, c, _, _, _, update⟩ := text
        exact noNewLinks_update update (by simp)
  have targetSame : ∀ lib ∈ twrp16Libs,
      libTargetNames after f0d lib = libTargetNames before f0d lib := by
    intro lib member
    rw [← passes.libTarget_withLibs apart unlinked member]
    have direct := (unlinked.libs lib member).targetDirect
    apply libTargetNames_congr (direct.of_noNewLinks links)
      (direct.of_noNewLinks passes.noNewLinks_withLibs)
    rw [sameNames _ (by simp [twrp16LibNames, twrp16Names, initRcNames])]
  constructor
  · exact outside
  · intro names untouched
    simp only [F0Changes, not_or] at untouched
    obtain ⟨notRecovery, notRes, notDirectory, noCopy, notScript⟩ := untouched
    rw [sameNames names notScript, passes.same_withLibs apart unlinked,
      passes.same_withDirectories notRecovery notRes notDirectory]
    exact fun lib member present equal => noCopy ⟨lib, member, present, equal⟩
  · exact removed
  · exact directories
  · exact copied
  · intro none
    cases written with
    | inl unwritten => rw [unwritten.2, scriptBefore, none]
    | inr text =>
        obtain ⟨raw, c, found, _⟩ := text
        rw [none] at found
        cases found
  · intro c found
    cases written with
    | inl unwritten =>
        rw [found] at unwritten
        cases unwritten.1
    | inr text =>
        obtain ⟨raw, read, here, _, decoded, update⟩ := text
        rw [found] at here
        cases here
        rw [decodeUtf8_encodeUtf8, Option.some.injEq, String.ofList_inj] at decoded
        subst decoded
        exact ⟨editText c, editText_edited c, by rw [update, Function.update_self]⟩
  · apply f0Transform_settled apart (unlinked.of_noNewLinks links)
      (removed _ (.inl (List.prefix_refl _))) (removed _ (.inr (List.prefix_refl _)))
      (directories _ (by decide) (List.prefix_refl _))
    · intro lib member present
      rw [InCi, ciSame] at present
      rw [ciSame, targetSame lib member]
      exact copied lib member present
    · cases written with
      | inl none =>
          left
          rw [none.2, scriptBefore]
          exact none.1
      | inr text =>
          obtain ⟨raw, c, _, noReturn, _, update⟩ := text
          right
          exact ⟨editText c, editText_plain noReturn, editText_idempotent c,
            by rw [update, Function.update_self]⟩

/-! ### Two stock trees -/

/-- A stock tree with the marker in its script and a CI tree with one library,
and more entries of the stock tree. -/
def treeEntries (more : List (List Name × Node Bytes)) : List (Location × Node Bytes) :=
  [(["f0"], .directory), (["ci"], .directory)] ++
    [["system"], ["system", "bin"], ["system", "lib64"], ["system", "etc"],
      ["system", "etc", "init"], ["system", "etc", "init", "hw"]].map
        (fun names => (place ["f0"] names, .directory)) ++
    [["system"], ["system", "lib64"]].map (fun names => (place ["ci"] names, .directory)) ++
    [(place ["f0"] initRcNames, .file (encodeUtf8 (String.ofList marker))),
      (place ["ci"] (ciLibNames "libbase.so"), .file [1])] ++
    more.map fun entry => (place ["f0"] entry.1, entry.2)

/-- The recovery program is a directory. -/
def recoveryDirectory : FileSystem Bytes :=
  .ofEntries (treeEntries [(recoveryNames, .directory), (recoveryNames ++ ["old"], .file [2])])
    (by decide +kernel)

/-- The library's name is taken by a directory. -/
def libDirectory : FileSystem Bytes :=
  .ofEntries (treeEntries [(twrp16Names, .directory), (twrp16LibNames "libbase.so", .directory)])
    (by decide +kernel)

theorem f0Unlinked_ofEntries {entries : List (Location × Node Bytes)}
    (closed : ∀ location ∈ entries.map Prod.fst,
      location.tail = [] ∨ entries.lookup location.tail = some .directory)
    (plain : ∀ entry ∈ entries, entry.2.isLink = false) :
    F0Unlinked (.ofEntries entries closed) ["f0"] ["ci"] where
  recovery := unlinked_ofEntries closed plain _ _
  res := unlinked_ofEntries closed plain _ _
  libs := fun _ _ => ⟨unlinked_ofEntries closed plain _ _, unlinked_ofEntries closed plain _ _⟩
  script := unlinked_ofEntries closed plain _ _

theorem plainScript_marker {fs : FileSystem Bytes}
    (found : fs.node (place ["f0"] initRcNames) =
      some (.file (encodeUtf8 (String.ofList marker)))) : PlainScript fs ["f0"] := by
  intro raw here
  rw [found] at here
  cases here
  exact ⟨marker, by decide, decodeUtf8_encodeUtf8 _⟩

theorem apart_f0_ci : Apart ["f0"] ["ci"] := ⟨by decide, by decide⟩

theorem f0Transform_result_recoveryDirectory :
    ∃ after, F0Result ["f0"] ["ci"] recoveryDirectory after := by
  obtain ⟨after, made, _⟩ := ok_of_read
    (show (f0Transform recoveryDirectory ["f0"] ["ci"]).toOption.map (fun _ => ()) = some ()
      by decide +kernel)
  exact ⟨after, f0Transform_result apart_f0_ci (f0Unlinked_ofEntries _ (by decide +kernel))
    (plainScript_marker (by decide +kernel)) made⟩

/-- A file in the directory of the recovery program's name goes, the directory of
the libraries comes, and a library goes into a directory of its name. -/
theorem f0Transform_changesMore :
    (F0Unlinked recoveryDirectory ["f0"] ["ci"] ∧ PlainScript recoveryDirectory ["f0"] ∧
      ∃ after, f0Transform recoveryDirectory ["f0"] ["ci"] = .ok after ∧
        recoveryDirectory.node (place ["f0"] (recoveryNames ++ ["old"])) = some (.file [2]) ∧
        after.node (place ["f0"] (recoveryNames ++ ["old"])) = none ∧
        recoveryDirectory.node (place ["f0"] twrp16Names) = none ∧
        after.node (place ["f0"] twrp16Names) = some .directory) ∧
    (F0Unlinked libDirectory ["f0"] ["ci"] ∧ PlainScript libDirectory ["f0"] ∧
      ∃ after, f0Transform libDirectory ["f0"] ["ci"] = .ok after ∧
        libDirectory.node (place ["f0"] (twrp16LibNames "libbase.so" ++ ["libbase.so"])) = none ∧
        after.node (place ["f0"] (twrp16LibNames "libbase.so" ++ ["libbase.so"])) =
          some (.file [1])) := by
  constructor
  · refine ⟨f0Unlinked_ofEntries _ (by decide +kernel), plainScript_marker (by decide +kernel), ?_⟩
    obtain ⟨after, made, nodes⟩ := ok_of_read
      (show (f0Transform recoveryDirectory ["f0"] ["ci"]).toOption.map (fun after =>
        (after.node (place ["f0"] (recoveryNames ++ ["old"])),
          after.node (place ["f0"] twrp16Names))) = some (none, some .directory)
        by decide +kernel)
    obtain ⟨gone, made16⟩ := Prod.mk.inj nodes
    exact ⟨after, made, by decide +kernel, gone, by decide +kernel, made16⟩
  · refine ⟨f0Unlinked_ofEntries _ (by decide +kernel), plainScript_marker (by decide +kernel), ?_⟩
    obtain ⟨after, made, inside⟩ := ok_of_read
      (show (f0Transform libDirectory ["f0"] ["ci"]).toOption.map (fun after =>
        after.node (place ["f0"] (twrp16LibNames "libbase.so" ++ ["libbase.so"]))) =
          some (some (.file [1])) by decide +kernel)
    exact ⟨after, made, by decide +kernel, inside⟩

end DashTwrp.PrepareFragments
