import DashTwrp.PrepareFragments.F0
import DashTwrp.InitRc.Insertion

namespace DashTwrp.PrepareFragments

open DashTwrp.Python DashTwrp.Unix DashTwrp.InitRc

/-! What each part of the F0 step changes, and that it changes nothing when its
work is done already. -/

variable {φ : Type}

/-- Neither directory lies in the other. -/
structure Apart (first second : Location) : Prop where
  firstOutside : ¬ first <:+ second
  secondOutside : ¬ second <:+ first

theorem Apart.place_ne {first second : Location} (apart : Apart first second)
    (firstNames secondNames : List Name) :
    place first firstNames ≠ place second secondNames := by
  intro same
  have inFirst : first <:+ place second secondNames := by
    rw [← same]
    exact suffix_place first firstNames
  cases List.suffix_or_suffix_of_suffix inFirst (suffix_place second secondNames) with
  | inl below => exact apart.firstOutside below
  | inr below => exact apart.secondOutside below

theorem Apart.outside {first second : Location} (apart : Apart first second)
    (names : List Name) : ¬ first <:+ place second names := by
  intro below
  obtain ⟨inner, same⟩ := below
  apply apart.place_ne inner.reverse names
  rw [← same, place, List.reverse_reverse]

theorem removePath_ok {fs : FileSystem φ} {start : Location} {names : List Name}
    (unlinked : Unlinked fs start names) (nonempty : names ≠ []) :
    ∃ after, removePath fs start (.ofNames names) = .ok after ∧
      Without (place start names) fs after := by
  unfold removePath
  cases found : fs.node (place start names) with
  | none =>
      rw [if_neg (fun present => unlinked.exists_iff.mp present found)]
      exact ⟨fs, rfl, without_of_absent found⟩
  | some node =>
      rw [if_pos (unlinked.exists_iff.mpr (by rw [found]; simp))]
      cases node with
      | directory =>
          rw [if_pos (unlinked.isDir_iff.mpr found)]
          exact rmtree_directory unlinked nonempty found
      | file data =>
          rw [if_neg (fun isDir => by rw [unlinked.isDir_iff.mp isDir] at found; cases found)]
          exact osRemove_file unlinked found
      | link target => exact absurd found (unlinked names (List.prefix_refl _) target)

theorem removePath_absent {fs : FileSystem φ} {start : Location} {names : List Name}
    (unlinked : Unlinked fs start names) (absent : fs.node (place start names) = none) :
    removePath fs start (.ofNames names) = .ok fs :=
  if_neg fun present => unlinked.exists_iff.mp present absent

/-! ### The libraries -/

/-- Where a copy of a library goes: into a directory of its name when there is one. -/
def libTargetNames (fs : FileSystem φ) (f0d : Location) (lib : Name) : List Name :=
  if fs.isDir f0d (.ofNames (twrp16LibNames lib)) then twrp16LibNames lib ++ [lib]
  else twrp16LibNames lib

theorem libTargetNames_cases (fs : FileSystem φ) (f0d : Location) (lib : Name) :
    libTargetNames fs f0d lib = twrp16LibNames lib ∨
      libTargetNames fs f0d lib = twrp16LibNames lib ++ [lib] := by
  unfold libTargetNames
  split
  · exact .inr rfl
  · exact .inl rfl

theorem libTargetNames_ne (fs other : FileSystem φ) (f0d : Location) {first second : Name}
    (different : first ≠ second) :
    libTargetNames fs f0d first ≠ twrp16LibNames second ∧
      libTargetNames fs f0d first ≠ libTargetNames other f0d second := by
  cases libTargetNames_cases fs f0d first with
  | inl firstCase =>
      cases libTargetNames_cases other f0d second with
      | inl secondCase => simp [firstCase, secondCase, twrp16LibNames, twrp16Names, different]
      | inr secondCase => simp [firstCase, secondCase, twrp16LibNames, twrp16Names, different]
  | inr firstCase =>
      cases libTargetNames_cases other f0d second with
      | inl secondCase => simp [firstCase, secondCase, twrp16LibNames, twrp16Names]
      | inr secondCase => simp [firstCase, secondCase, twrp16LibNames, twrp16Names, different]

/-- The paths of a library have no links on them. -/
structure LibUnlinked (fs : FileSystem φ) (ciF1d f0d : Location) (lib : Name) : Prop where
  source : Unlinked fs ciF1d (ciLibNames lib)
  target : Unlinked fs f0d (twrp16LibNames lib ++ [lib])

theorem LibUnlinked.of_noNewLinks {fs after : FileSystem φ} {ciF1d f0d : Location} {lib : Name}
    (unlinked : LibUnlinked fs ciF1d f0d lib) (kept : NoNewLinks fs after) :
    LibUnlinked after ciF1d f0d lib :=
  ⟨unlinked.source.of_noNewLinks kept, unlinked.target.of_noNewLinks kept⟩

theorem LibUnlinked.targetDirect {fs : FileSystem φ} {ciF1d f0d : Location} {lib : Name}
    (unlinked : LibUnlinked fs ciF1d f0d lib) : Unlinked fs f0d (twrp16LibNames lib) :=
  unlinked.target.prefix_of (List.prefix_append _ _)

theorem LibUnlinked.targetNames {fs : FileSystem φ} {ciF1d f0d : Location} {lib : Name}
    (unlinked : LibUnlinked fs ciF1d f0d lib) :
    Unlinked fs f0d (libTargetNames fs f0d lib) := by
  cases libTargetNames_cases fs f0d lib with
  | inl direct => exact direct ▸ unlinked.targetDirect
  | inr inside => exact inside ▸ unlinked.target

theorem copy2_lib (fs : FileSystem φ) (ciF1d f0d : Location) (lib : Name) :
    copy2 false fs ciF1d (.ofNames (ciLibNames lib)) f0d (.ofNames (twrp16LibNames lib)) =
      copyFile false fs ciF1d (.ofNames (ciLibNames lib)) f0d
        (.ofNames (libTargetNames fs f0d lib)) := by
  unfold copy2 libTargetNames
  split
  · rfl
  · rfl

theorem copyLib_ok {fs after : FileSystem φ} {ciF1d f0d : Location} {lib : Name}
    (unlinked : LibUnlinked fs ciF1d f0d lib) (copied : copyLib fs ciF1d f0d lib = .ok after) :
    fs.node (place ciF1d (ciLibNames lib)) = none ∧ after = fs ∨
      ∃ data, fs.node (place ciF1d (ciLibNames lib)) = some (.file data) ∧
        after.node =
          Function.update fs.node (place f0d (libTargetNames fs f0d lib)) (some (.file data)) := by
  unfold copyLib at copied
  split at copied
  · rw [copy2_lib] at copied
    obtain ⟨data, sourceFile, _, same⟩ := copyFile_ok unlinked.source unlinked.targetNames copied
    exact .inr ⟨data, sourceFile, same⟩
  · rename_i absent
    cases copied
    exact .inl ⟨not_not.mp fun present => absent (unlinked.source.exists_iff.mpr present), rfl⟩

/-- The libraries that the CI tree has are copied, and the rest is as before. -/
structure LibsCopied (ciF1d f0d : Location) (libs : List Name) (before after : FileSystem φ) :
    Prop where
  copied : ∀ lib ∈ libs, ∀ data, before.node (place ciF1d (ciLibNames lib)) = some (.file data) →
    after.node (place f0d (libTargetNames before f0d lib)) = some (.file data)
  isFile : ∀ lib ∈ libs, before.node (place ciF1d (ciLibNames lib)) ≠ none →
    ∃ data, before.node (place ciF1d (ciLibNames lib)) = some (.file data)
  same : ∀ other, (∀ lib ∈ libs, before.node (place ciF1d (ciLibNames lib)) ≠ none →
      other ≠ place f0d (libTargetNames before f0d lib)) → after.node other = before.node other

theorem LibsCopied.noNewLinks {ciF1d f0d : Location} {libs : List Name}
    {before after : FileSystem φ} (made : LibsCopied ciF1d f0d libs before after) :
    NoNewLinks before after := by
  intro other target found
  by_cases copied : ∃ lib ∈ libs, before.node (place ciF1d (ciLibNames lib)) ≠ none ∧
      other = place f0d (libTargetNames before f0d lib)
  · obtain ⟨lib, member, present, rfl⟩ := copied
    obtain ⟨data, file⟩ := made.isFile lib member present
    rw [made.copied lib member data file] at found
    cases found
  · rw [← made.same other fun lib member present here => copied ⟨lib, member, present, here⟩]
    exact found

theorem copyLibs_ok {ciF1d f0d : Location} (apart : Apart f0d ciF1d) {libs : List Name}
    (distinct : libs.Nodup) {fs after : FileSystem φ}
    (unlinked : ∀ lib ∈ libs, LibUnlinked fs ciF1d f0d lib)
    (copied : copyLibs fs ciF1d f0d libs = .ok after) : LibsCopied ciF1d f0d libs fs after := by
  induction libs generalizing fs with
  | nil =>
      cases copied
      exact ⟨by simp, by simp, fun _ _ => rfl⟩
  | cons lib rest ih =>
      obtain ⟨notIn, restDistinct⟩ := List.nodup_cons.mp distinct
      obtain ⟨between, first, remaining⟩ := except_bind_eq_ok copied
      cases copyLib_ok (unlinked lib (by simp)) first with
      | inl absent =>
          obtain ⟨missing, rfl⟩ := absent
          have later := ih restDistinct (fun other member => unlinked other (by simp [member]))
            remaining
          constructor
          · intro other member data found
            cases member with
            | head =>
                rw [missing] at found
                cases found
            | tail _ inRest => exact later.copied other inRest data found
          · intro other member present
            cases member with
            | head => exact absurd missing present
            | tail _ inRest => exact later.isFile other inRest present
          · exact fun other off => later.same other fun lib member => off lib (by simp [member])
      | inr made =>
          obtain ⟨data, found, same⟩ := made
          have kept : NoNewLinks fs between := noNewLinks_update same (by simp)
          have source (other : Name) : between.node (place ciF1d (ciLibNames other)) =
              fs.node (place ciF1d (ciLibNames other)) := by
            rw [same, Function.update_of_ne (apart.place_ne _ _).symm]
          have target : ∀ other ∈ rest,
              libTargetNames between f0d other = libTargetNames fs f0d other := by
            intro other member
            have different : lib ≠ other := fun equal => notIn (equal ▸ member)
            have direct := (unlinked other (by simp [member])).targetDirect
            have sameDir : between.isDir f0d (.ofNames (twrp16LibNames other)) =
                fs.isDir f0d (.ofNames (twrp16LibNames other)) := by
              rw [Bool.eq_iff_iff, (direct.of_noNewLinks kept).isDir_iff, direct.isDir_iff, same,
                Function.update_of_ne]
              rw [Ne, place_inj]
              exact (libTargetNames_ne fs fs f0d different).1.symm
            rw [libTargetNames, sameDir, ← libTargetNames]
          have later := ih restDistinct
            (fun other member => (unlinked other (by simp [member])).of_noNewLinks kept) remaining
          constructor
          · intro other member bytes otherFound
            cases member with
            | head =>
                rw [found] at otherFound
                cases otherFound
                rw [later.same, same, Function.update_self]
                intro other inRest _ equal
                rw [target other inRest, place_inj] at equal
                have different : lib ≠ other := fun sameLib => notIn (sameLib ▸ inRest)
                exact (libTargetNames_ne fs fs f0d different).2 equal
            | tail _ inRest =>
                rw [← target other inRest]
                exact later.copied other inRest bytes (by rw [source]; exact otherFound)
          · intro other member present
            cases member with
            | head => exact ⟨data, found⟩
            | tail _ inRest =>
                rw [← source] at present ⊢
                exact later.isFile other inRest present
          · intro other off
            rw [later.same, same, Function.update_of_ne]
            · exact off lib (by simp) (by rw [found]; simp)
            · intro third inRest present
              rw [source] at present
              rw [target third inRest]
              exact off third (by simp [inRest]) present

/-- Libraries that are there already are not copied again. -/
theorem copyLibs_again {ciF1d f0d : Location} (apart : Apart f0d ciF1d) {libs : List Name}
    {fs : FileSystem φ} (unlinked : ∀ lib ∈ libs, LibUnlinked fs ciF1d f0d lib)
    (settled : ∀ lib ∈ libs, fs.node (place ciF1d (ciLibNames lib)) ≠ none →
      ∃ data, fs.node (place ciF1d (ciLibNames lib)) = some (.file data) ∧
        fs.node (place f0d (libTargetNames fs f0d lib)) = some (.file data)) :
    copyLibs fs ciF1d f0d libs = .ok fs := by
  induction libs with
  | nil => rfl
  | cons lib rest ih =>
      have here := unlinked lib (by simp)
      have again : copyLib fs ciF1d f0d lib = .ok fs := by
        unfold copyLib
        split
        · rename_i present
          obtain ⟨data, source, target⟩ :=
            settled lib (by simp) (here.source.exists_iff.mp present)
          rw [copy2_lib]
          exact copyFile_again here.source here.targetNames (apart.place_ne _ _).symm source target
        · rfl
      rw [copyLibs, again]
      exact ih (fun other member => unlinked other (by simp [member]))
        (fun other member => settled other (by simp [member]))

/-- Where a copy goes depends on the node of the library's name. -/
theorem libTargetNames_congr {fs other : FileSystem φ} {f0d : Location} {lib : Name}
    (unlinked : Unlinked fs f0d (twrp16LibNames lib))
    (otherUnlinked : Unlinked other f0d (twrp16LibNames lib))
    (same : fs.node (place f0d (twrp16LibNames lib)) = some .directory ↔
      other.node (place f0d (twrp16LibNames lib)) = some .directory) :
    libTargetNames fs f0d lib = libTargetNames other f0d lib := by
  have sameDir : fs.isDir f0d (.ofNames (twrp16LibNames lib)) =
      other.isDir f0d (.ofNames (twrp16LibNames lib)) := by
    rw [Bool.eq_iff_iff, unlinked.isDir_iff, otherUnlinked.isDir_iff, same]
  rw [libTargetNames, sameDir, ← libTargetNames]

/-! ### The script -/

/-- A script that decodes and has no carriage return. -/
def PlainScript (fs : FileSystem Bytes) (f0d : Location) : Prop :=
  ∀ raw, fs.node (place f0d initRcNames) = some (.file raw) →
    ∃ c, '\r' ∉ c ∧ decodeUtf8 raw = some (String.ofList c)

theorem decodeText_plain {raw : Bytes} {c : List Char} (plain : '\r' ∉ c)
    (decoded : decodeUtf8 raw = some (String.ofList c)) : decodeText raw = some c := by
  rw [decodeText, decoded, Option.map_some, String.toList_ofList, universalNewlines_plain plain]

theorem readText_file {fs : FileSystem Bytes} {start : Location} {names : List Name}
    (unlinked : Unlinked fs start names) {raw : Bytes} {c : List Char}
    (found : fs.node (place start names) = some (.file raw))
    (decoded : decodeText raw = some c) : readText fs start (.ofNames names) = .ok c := by
  rw [readText, readTextFile, (unlinked.stat_iff true).mpr found]
  simp only [decoded]

theorem editScript_ok {fs after : FileSystem Bytes} {f0d : Location}
    (unlinked : Unlinked fs f0d initRcNames) (plain : PlainScript fs f0d)
    (edited : editScript fs f0d = .ok after) :
    fs.node (place f0d initRcNames) = none ∧ after = fs ∨
      ∃ raw c, fs.node (place f0d initRcNames) = some (.file raw) ∧ '\r' ∉ c ∧
        decodeUtf8 raw = some (String.ofList c) ∧
          after.node = Function.update fs.node (place f0d initRcNames)
            (some (.file (encodeUtf8 (String.ofList (editText c))))) := by
  unfold editScript at edited
  split at edited
  · right
    obtain ⟨text, read, wrote⟩ := except_bind_eq_ok edited
    unfold readText readTextFile at read
    split at read
    · contradiction
    · rename_i raw opened
      have found := (unlinked.stat_iff true).mp opened
      obtain ⟨c, noReturn, decoded⟩ := plain raw found
      rw [decodeText_plain noReturn decoded] at read
      obtain rfl := Except.ok.inj read
      cases result : writeFile fs f0d (.ofNames initRcNames)
          (encodeUtf8 (String.ofList (editText c))) with
      | error error =>
          rw [result] at wrote
          cases wrote
      | ok made =>
          rw [result] at wrote
          cases wrote
          exact ⟨raw, c, found, noReturn, decoded, (writeFile_ok unlinked result).2⟩
    · contradiction
  · rename_i absent
    cases edited
    exact .inl ⟨not_not.mp fun present => absent (unlinked.exists_iff.mpr present), rfl⟩

/-- A script that was edited is written back as it is. -/
theorem editScript_again {fs : FileSystem Bytes} {f0d : Location}
    (unlinked : Unlinked fs f0d initRcNames)
    (settled : fs.node (place f0d initRcNames) = none ∨
      ∃ c, '\r' ∉ c ∧ editText c = c ∧
        fs.node (place f0d initRcNames) = some (.file (encodeUtf8 (String.ofList c)))) :
    editScript fs f0d = .ok fs := by
  unfold editScript
  split
  · rename_i present
    cases settled with
    | inl absent => exact absurd absent (unlinked.exists_iff.mp present)
    | inr edited =>
        obtain ⟨c, plain, same, found⟩ := edited
        have read := readText_file unlinked found
          (decodeText_plain plain (decodeUtf8_encodeUtf8 (String.ofList c)))
        rw [read]
        change Except.mapError _ (writeFile fs f0d (.ofNames initRcNames)
          (encodeUtf8 (String.ofList (editText c)))) = _
        rw [same, writeFile_same unlinked found]
        rfl
  · rfl

end DashTwrp.PrepareFragments
