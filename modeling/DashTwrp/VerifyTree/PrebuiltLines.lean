import DashTwrp.VerifyTree.Prebuilts

namespace DashTwrp.VerifyTree

open DashTwrp.Python DashTwrp.Unix

/-! Which lines of the manifest the checks enforce.

`expected_prebuilts` keeps one digest for each path, so of several lines with one
path only the last is compared with the file. -/

/-- A digest of 64 characters and a path below the compatibility tree. -/
structure NamesFile (line path digest : List Char) : Prop where
  fields : words line = [digest, path]
  width : digest.length = 64
  inside : prebuiltPrefix <+: path

variable {lines : List (List Char)} {line path digest : List Char} {lineNumber : Nat}
  {expected : Manifest} {hexdigest : Bytes → List Char} {tree : WorkingTree}

theorem manifestLine_eq_ok_iff :
    manifestLine line = .ok (path, digest) ↔ NamesFile line path digest := by
  constructor
  · intro read
    obtain ⟨fields, width, inside⟩ := manifestLine_eq_ok read
    exact ⟨fields, width, inside⟩
  · intro names
    simp only [manifestLine, names.fields, names.width, names.inside, ne_eq, not_true_eq_false,
      if_false, if_true]

theorem NamesFile.unique {otherPath otherDigest : List Char} (names : NamesFile line path digest)
    (others : NamesFile line otherPath otherDigest) : path = otherPath ∧ digest = otherDigest := by
  have same := names.fields.symm.trans others.fields
  simp only [List.cons.injEq, and_true] at same
  exact same.symm

/-- The last line with this path gives it this digest. -/
def LastNames (lines : List (List Char)) (path digest : List Char) : Prop :=
  ∃ front line back, lines = front ++ line :: back ∧ NamesFile line path digest ∧
    ∀ later ∈ back, ∀ other, ¬ NamesFile later path other

theorem LastNames.exists_line (last : LastNames lines path digest) :
    ∃ line ∈ lines, NamesFile line path digest := by
  obtain ⟨front, line, back, rfl, names, -⟩ := last
  exact ⟨line, by simp, names⟩

theorem lastNames_cons : LastNames (line :: lines) path digest ↔
    LastNames lines path digest ∨
      NamesFile line path digest ∧ ∀ later ∈ lines, ∀ other, ¬ NamesFile later path other := by
  constructor
  · intro last
    obtain ⟨front, middle, back, cut, names, alone⟩ := last
    cases front with
    | nil =>
        cases cut
        exact .inr ⟨names, alone⟩
    | cons first front =>
        cases cut
        exact .inl ⟨front, middle, back, rfl, names, alone⟩
  · intro last
    cases last with
    | inl later =>
        obtain ⟨front, middle, back, rfl, names, alone⟩ := later
        exact ⟨line :: front, middle, back, rfl, names, alone⟩
    | inr here => exact ⟨[], line, lines, rfl, here⟩

/-- A path that some line names has a last line. -/
theorem exists_lastNames (named : ∃ line ∈ lines, ∃ digest, NamesFile line path digest) :
    ∃ digest, LastNames lines path digest := by
  induction lines with
  | nil =>
      obtain ⟨line, member, -⟩ := named
      cases member
  | cons line rest ih =>
      by_cases later : ∃ line ∈ rest, ∃ digest, NamesFile line path digest
      · obtain ⟨digest, last⟩ := ih later
        exact ⟨digest, lastNames_cons.mpr (.inl last)⟩
      · obtain ⟨found, member, digest, names⟩ := named
        cases member with
        | head =>
            refine ⟨digest, lastNames_cons.mpr (.inr ⟨names, fun other inRest digest names => ?_⟩)⟩
            exact later ⟨other, inRest, digest, names⟩
        | tail _ inRest => exact absurd ⟨found, inRest, digest, names⟩ later

/-- No line fails exactly when every line names a file. -/
theorem readManifest_passed_iff :
    allPassed (readManifest lineNumber expected lines).1 = true ↔
      ∀ line ∈ lines, ∃ path digest, NamesFile line path digest := by
  constructor
  · intro passed line member
    obtain ⟨path, digest, read, -⟩ := (readManifest_passed passed).1 line member
    exact ⟨path, digest, manifestLine_eq_ok_iff.mp read⟩
  · intro wellFormed
    induction lines generalizing lineNumber expected with
    | nil => rfl
    | cons line rest ih =>
        obtain ⟨path, digest, names⟩ := wellFormed line List.mem_cons_self
        rw [readManifest, manifestLine_eq_ok_iff.mpr names]
        exact ih fun other member => wellFormed other (List.mem_cons_of_mem _ member)

/-- The dictionary holds what the last lines say, and what it held before. -/
theorem lookup_readManifest :
    (readManifest lineNumber expected lines).2.lookup path = some digest ↔
      LastNames lines path digest ∨
        (∀ line ∈ lines, ∀ other, ¬ NamesFile line path other) ∧
          expected.lookup path = some digest := by
  induction lines generalizing lineNumber expected with
  | nil =>
      have none : ¬ LastNames [] path digest := fun last => by
        obtain ⟨_, member, -⟩ := last.exists_line
        cases member
      simp [readManifest, none]
  | cons line rest ih =>
      rw [lastNames_cons, List.forall_mem_cons]
      cases read : manifestLine line with
      | error error =>
          have noName : ∀ path digest, ¬ NamesFile line path digest := fun path digest names => by
            rw [manifestLine_eq_ok_iff.mpr names] at read
            cases read
          simp only [readManifest, read, ih, noName, false_and, or_false, not_false_eq_true,
            implies_true, true_and]
      | ok fields =>
          obtain ⟨named, given⟩ := fields
          have names := manifestLine_eq_ok_iff.mp read
          simp only [readManifest, read, ih]
          by_cases same : path = named
          · subst same
            have this : ¬ ∀ other, ¬ NamesFile line path other := fun none => none given names
            have digestOf : NamesFile line path digest ↔ given = digest :=
              ⟨fun other => (names.unique other).2, fun same => same ▸ names⟩
            simp only [AList.lookup_insert, Option.some.injEq, this, digestOf, false_and, or_false,
              and_comm]
          · have notNamed : ∀ other, ¬ NamesFile line path other := fun other others =>
              same (others.unique names).1
            simp only [AList.lookup_insert_ne same, notNamed, false_and, or_false,
              not_false_eq_true, implies_true, true_and]

namespace WorkingTree

/-- The file that a path of the manifest leads to has this digest. -/
def HasDigest (tree : WorkingTree) (hexdigest : Bytes → List Char) (path digest : List Char) :
    Prop :=
  ∃ data, tree.files.stat true tree.root (relativePath path) = .ok (.file data) ∧
    hexdigest data = digest

/-- A path of a file of the compatibility tree leads to that file. -/
theorem stat_actualPrebuilts (actual : path ∈ tree.actualPrebuilts) :
    ∃ data, tree.files.stat true tree.root (relativePath path) = .ok (.file data) := by
  obtain ⟨names, data, ⟨entry, found⟩, rfl⟩ := mem_actualPrebuilts.mp actual
  exact ⟨data, by rw [relativePath_prebuilt entry, found]⟩

end WorkingTree

/-- Every line is a digest and a path below the compatibility tree, and the paths
are those of its files. -/
structure Listed (tree : WorkingTree) (lines : List (List Char)) : Prop where
  wellFormed : ∀ line ∈ lines, ∃ path digest, NamesFile line path digest
  complete : ∀ path, (∃ line ∈ lines, ∃ digest, NamesFile line path digest) ↔
    ∃ names data, tree.HoldsPrebuilt names data ∧ path = posixText (prebuiltNames ++ names)

/-- Every line names a file with its digest. -/
structure Enforced (hexdigest : Bytes → List Char) (tree : WorkingTree)
    (lines : List (List Char)) : Prop extends Listed tree lines where
  digests : ∀ line ∈ lines, ∀ path digest, NamesFile line path digest →
    tree.HasDigest hexdigest path digest

/-- Every path's last line names a file with its digest. -/
structure LastEnforced (hexdigest : Bytes → List Char) (tree : WorkingTree)
    (lines : List (List Char)) : Prop extends Listed tree lines where
  digests : ∀ path digest, LastNames lines path digest → tree.HasDigest hexdigest path digest

/-- No two lines give one path different digests. -/
def Consistent (lines : List (List Char)) : Prop :=
  ∀ first ∈ lines, ∀ second ∈ lines, ∀ path digest other, NamesFile first path digest →
    NamesFile second path other → digest = other

/-- The checks pass exactly when every path's last line is right. -/
theorem prebuiltChecks_passed_iff (manifest : List Char) :
    allPassed (prebuiltChecks hexdigest tree manifest) = true ↔
      LastEnforced hexdigest tree (textLines manifest) := by
  have known : ∀ path digest,
      (readManifest 1 ∅ (textLines manifest)).2.lookup path = some digest ↔
        LastNames (textLines manifest) path digest := by
    intro path digest
    rw [lookup_readManifest]
    simp
  have isKey : ∀ path, path ∈ (readManifest 1 ∅ (textLines manifest)).2.keys ↔
      ∃ line ∈ textLines manifest, ∃ digest, NamesFile line path digest := by
    intro path
    rw [← AList.mem_keys, ← AList.lookup_isSome, Option.isSome_iff_exists]
    constructor
    · intro found
      obtain ⟨digest, found⟩ := found
      obtain ⟨line, member, names⟩ := ((known path digest).mp found).exists_line
      exact ⟨line, member, digest, names⟩
    · intro named
      obtain ⟨digest, last⟩ := exists_lastNames named
      exact ⟨digest, (known path digest).mpr last⟩
  simp only [prebuiltChecks, allPassed_append, allPassed_cons, decide_eq_true_eq,
    readManifest_passed_iff, hashChecks_passed_iff]
  constructor
  · intro passed
    obtain ⟨wellFormed, ⟨inManifest, inTree⟩, hashes⟩ := passed
    refine { wellFormed, complete := fun path => ?_, digests := fun path digest last => ?_ }
    · rw [← WorkingTree.mem_actualPrebuilts, ← isKey]
      exact ⟨fun key => inTree key, fun actual => inManifest actual⟩
    · obtain ⟨line, member, names⟩ := last.exists_line
      have actual := inTree ((isKey path).mpr ⟨line, member, digest, names⟩)
      obtain ⟨data, found⟩ := WorkingTree.stat_actualPrebuilts actual
      exact ⟨data, found, hashes path digest ((known path digest).mpr last) data found⟩
  · intro enforced
    refine ⟨enforced.wellFormed, ⟨fun path actual => ?_, fun path key => ?_⟩,
      fun path digest found data isFile => ?_⟩
    · exact (isKey path).mpr ((enforced.complete path).mpr (WorkingTree.mem_actualPrebuilts.mp actual))
    · exact WorkingTree.mem_actualPrebuilts.mpr ((enforced.complete path).mp ((isKey path).mp key))
    · obtain ⟨other, holds, right⟩ := enforced.digests path digest ((known path digest).mp found)
      rw [isFile] at holds
      cases holds
      exact right

/-- A manifest whose every line is right has no contradicting lines. -/
theorem enforced_iff :
    Enforced hexdigest tree lines ↔ LastEnforced hexdigest tree lines ∧ Consistent lines := by
  constructor
  · intro enforced
    refine ⟨⟨enforced.toListed, fun path digest last => ?_⟩, ?_⟩
    · obtain ⟨line, member, names⟩ := last.exists_line
      exact enforced.digests line member path digest names
    · intro first firstIn second secondIn path digest other firstNames secondNames
      obtain ⟨data, found, right⟩ := enforced.digests first firstIn path digest firstNames
      obtain ⟨same, foundAgain, rightAgain⟩ := enforced.digests second secondIn path other secondNames
      rw [found] at foundAgain
      cases foundAgain
      exact right.symm.trans rightAgain
  · intro both
    obtain ⟨enforced, consistent⟩ := both
    refine ⟨enforced.toListed, fun line member path digest names => ?_⟩
    obtain ⟨other, last⟩ := exists_lastNames ⟨line, member, digest, names⟩
    obtain ⟨lastLine, lastMember, lastOne⟩ := last.exists_line
    rw [consistent line member lastLine lastMember path digest other names lastOne]
    exact enforced.digests path other last

theorem Enforced.of_perm {others : List (List Char)} (enforced : Enforced hexdigest tree lines)
    (same : lines.Perm others) : Enforced hexdigest tree others where
  wellFormed := fun line member => enforced.wellFormed line (same.mem_iff.mpr member)
  complete := fun path => by
    rw [← enforced.complete path]
    simp only [same.mem_iff]
  digests := fun line member => enforced.digests line (same.mem_iff.mpr member)

/-- The checks pass exactly on the manifests whose every line is right, unless two
lines contradict each other and the last lines alone are right.  Manifests of
agreeing lines are judged the same in any order. -/
theorem prebuiltChecks_enforce_iff (hexdigest : Bytes → List Char) (tree : WorkingTree)
    (manifest : List Char) :
    ((allPassed (prebuiltChecks hexdigest tree manifest) = true ↔
        Enforced hexdigest tree (textLines manifest)) ↔
      Consistent (textLines manifest) ∨ ¬ LastEnforced hexdigest tree (textLines manifest)) ∧
    (Consistent (textLines manifest) → ∀ other, (textLines manifest).Perm (textLines other) →
      allPassed (prebuiltChecks hexdigest tree other) =
        allPassed (prebuiltChecks hexdigest tree manifest)) := by
  constructor
  · rw [prebuiltChecks_passed_iff, enforced_iff]
    constructor
    · intro exact
      by_cases enforced : LastEnforced hexdigest tree (textLines manifest)
      · exact .inl (exact.mp enforced).2
      · exact .inr enforced
    · intro condition
      refine ⟨fun enforced => ⟨enforced, ?_⟩, And.left⟩
      exact condition.resolve_right (not_not.mpr enforced)
  · intro consistent other same
    have otherConsistent : Consistent (textLines other) := fun first firstIn second secondIn =>
      consistent first (same.mem_iff.mpr firstIn) second (same.mem_iff.mpr secondIn)
    rw [Bool.eq_iff_iff, prebuiltChecks_passed_iff, prebuiltChecks_passed_iff]
    have enforces : ∀ {lines}, Consistent lines →
        (LastEnforced hexdigest tree lines ↔ Enforced hexdigest tree lines) := fun agreeing =>
      ⟨fun enforced => enforced_iff.mpr ⟨enforced, agreeing⟩, fun enforced => (enforced_iff.mp enforced).1⟩
    rw [enforces consistent, enforces otherConsistent]
    exact ⟨fun enforced => enforced.of_perm same.symm, fun enforced => enforced.of_perm same⟩

/-- A working copy whose compatibility tree has one file, the empty one. -/
def emptyFileTree : WorkingTree where
  files := .ofEntries [(["prebuilt"], .directory), (["a15-aidl", "prebuilt"], .directory),
    (["empty", "a15-aidl", "prebuilt"], .file [])] (by decide)
  root := []
  listing := _
  lists := lists_ofEntries _
  named := by
    intro location present
    have listed := (lists_ofEntries _ location).mpr present
    have every : ∀ location ∈ [[], ["prebuilt"], ["a15-aidl", "prebuilt"],
        ["empty", "a15-aidl", "prebuilt"]], ∀ name ∈ location,
        name ≠ "" ∧ name ≠ "." ∧ name ≠ ".." ∧ '/' ∉ name.toList := by decide
    intro name member
    obtain ⟨nonempty, notHere, notUp, noSeparator⟩ := every location listed name member
    exact ⟨nonempty, notHere, notUp, noSeparator⟩

def emptyFileManifest : List Char := emptyDigest ++ "  prebuilt/a15-aidl/empty\n".toList

/-- A wrong digest of the empty file. -/
def zeroDigest : List Char := List.replicate 64 '0'

/-- The wrong digest of the empty file, and then the right one. -/
def contradictingManifest : List Char :=
  zeroDigest ++ "  prebuilt/a15-aidl/empty\n".toList ++ emptyFileManifest

/-- The checks pass, although the first line's digest is wrong. -/
theorem prebuiltChecks_contradictingManifest :
    let hexdigest := fun data : Bytes => if data = [] then emptyDigest else []
    allPassed (prebuiltChecks hexdigest emptyFileTree contradictingManifest) = true ∧
      ¬ Enforced hexdigest emptyFileTree (textLines contradictingManifest) := by
  intro hexdigest
  refine ⟨by decide +kernel, fun enforced => ?_⟩
  have wrong : zeroDigest ++ "  prebuilt/a15-aidl/empty".toList ∈ textLines contradictingManifest := by
    decide +kernel
  have right : emptyDigest ++ "  prebuilt/a15-aidl/empty".toList ∈ textLines contradictingManifest := by
    decide +kernel
  have wrongNames : manifestLine (zeroDigest ++ "  prebuilt/a15-aidl/empty".toList) =
      .ok ("prebuilt/a15-aidl/empty".toList, zeroDigest) := by decide +kernel
  have rightNames : manifestLine (emptyDigest ++ "  prebuilt/a15-aidl/empty".toList) =
      .ok ("prebuilt/a15-aidl/empty".toList, emptyDigest) := by decide +kernel
  have same : zeroDigest = emptyDigest := (enforced_iff.mp enforced).2 _ wrong _ right _ _ _
    (manifestLine_eq_ok_iff.mp wrongNames) (manifestLine_eq_ok_iff.mp rightNames)
  exact absurd same (by decide +kernel)

end DashTwrp.VerifyTree
