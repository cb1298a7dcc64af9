import DashTwrp.Unix.Trees
import DashTwrp.Python.PathTexts
import DashTwrp.VerifyTree.Verdict
import Mathlib.Data.Char
import Mathlib.Data.List.AList
import Mathlib.Data.List.Lex

namespace DashTwrp.VerifyTree

open DashTwrp.Python DashTwrp.Unix

/-! The manifest of the compatibility tree's files.

The hash function is a parameter: it maps the bytes of a file to the text of
their digest. -/

/-- The files of a working copy and the directory `ROOT` in it. -/
structure WorkingTree where
  files : FileSystem Bytes
  root : Location
  listing : List Location
  lists : Lists listing files
  named : ∀ location, files.node location ≠ none → ∀ name ∈ location, ValidName name

/-- The digests by path, where a later line replaces an earlier one. -/
abbrev Manifest := AList fun _ : List Char => List Char

inductive LineError where
  | malformed
  | outside
deriving DecidableEq, Repr

def prebuiltNames : List Name := ["prebuilt", "a15-aidl"]

def prebuiltPrefix : List Char := "prebuilt/a15-aidl/".toList

/-- A line's path and digest. -/
def manifestLine (line : List Char) : Except LineError (List Char × List Char) :=
  match words line with
  | [digest, path] =>
      if digest.length ≠ 64 then .error .malformed
      else if prebuiltPrefix <+: path then .ok (path, digest)
      else .error .outside
  | _ => .error .malformed

def lineCheckName (error : LineError) (lineNumber : Nat) : String :=
  match error with
  | .malformed => "prebuilt-manifest:line:" ++ toString lineNumber
  | .outside => "prebuilt-manifest:path:" ++ toString lineNumber

/-- The failed checks of the lines, and `expected_prebuilts` behind the last one. -/
def readManifest (lineNumber : Nat) (expected : Manifest) :
    List (List Char) → List Check × Manifest
  | [] => ([], expected)
  | line :: rest =>
      match manifestLine line with
      | .ok (path, digest) => readManifest (lineNumber + 1) (expected.insert path digest) rest
      | .error error =>
          let (checks, final) := readManifest (lineNumber + 1) expected rest
          ({ name := lineCheckName error lineNumber, passed := false } :: checks, final)

namespace WorkingTree

variable (tree : WorkingTree)

/-- The path of an entry below the compatibility tree. -/
def prebuiltPath (names : List Name) : PurePath :=
  { absolute := false, steps := (prebuiltNames ++ names).map .name }

/-- `(ROOT / "prebuilt" / "a15-aidl").rglob("*")` -/
def prebuiltEntries : List (List Name) :=
  match tree.files.locate true tree.root (prebuiltPath []) with
  | .ok base =>
      if tree.files.isDir tree.root (prebuiltPath []) then
        (descendants tree.listing base).map List.reverse
      else []
  | .error _ => []

/-- `actual_prebuilts` -/
def actualPrebuilts : List (List Char) :=
  (tree.prebuiltEntries.filter fun names => tree.files.isFile tree.root (prebuiltPath names)).map
    fun names => posixText (prebuiltNames ++ names)

end WorkingTree

/-- The checks of the digests, in the order of the paths. -/
def hashChecks (hexdigest : Bytes → List Char) (tree : WorkingTree) (expected : Manifest) :
    List Check :=
  (expected.entries.mergeSort fun first second => first.1 ≤ second.1).filterMap fun entry =>
    match tree.files.stat true tree.root (relativePath entry.1) with
    | .ok (.file data) =>
        some { name := "prebuilt-sha256:" ++ String.ofList entry.1,
               passed := hexdigest data = entry.2 }
    | _ => none

/-- The checks of the manifest and of the files it names. -/
def prebuiltChecks (hexdigest : Bytes → List Char) (tree : WorkingTree) (manifest : List Char) :
    List Check :=
  let (lineChecks, expected) := readManifest 1 ∅ (textLines manifest)
  lineChecks ++
    { name := "prebuilt-manifest:complete",
      passed := tree.actualPrebuilts ⊆ expected.keys ∧ expected.keys ⊆ tree.actualPrebuilts } ::
    hashChecks hexdigest tree expected

/-! ### What passed checks say -/

theorem prebuiltNames_valid : ∀ name ∈ prebuiltNames, ValidName name := by
  intro name member
  simp only [prebuiltNames, List.mem_cons, List.not_mem_nil, or_false] at member
  cases member with
  | inl same => exact same ▸ ⟨by decide, by decide, by decide, by decide⟩
  | inr same => exact same ▸ ⟨by decide, by decide, by decide, by decide⟩

theorem manifestLine_eq_ok {line path digest : List Char}
    (read : manifestLine line = .ok (path, digest)) :
    words line = [digest, path] ∧ digest.length = 64 ∧ prebuiltPrefix <+: path := by
  unfold manifestLine at read
  split at read
  · rename_i fields
    split at read
    · contradiction
    · rename_i long
      split at read
      · rename_i inside
        cases read
        exact ⟨fields, not_not.mp long, inside⟩
      · contradiction
  · contradiction

theorem readManifest_passed {lineNumber : Nat} {expected : Manifest} {lines : List (List Char)}
    (passed : allPassed (readManifest lineNumber expected lines).1 = true) :
    (∀ line ∈ lines, ∃ path digest, manifestLine line = .ok (path, digest) ∧
        path ∈ (readManifest lineNumber expected lines).2) ∧
      ∀ path ∈ expected, path ∈ (readManifest lineNumber expected lines).2 := by
  induction lines generalizing lineNumber expected with
  | nil => exact ⟨by simp, fun _ member => member⟩
  | cons line rest ih =>
      cases read : manifestLine line with
      | error error => simp [readManifest, read] at passed
      | ok fields =>
          obtain ⟨path, digest⟩ := fields
          simp only [readManifest, read] at passed ⊢
          obtain ⟨later, kept⟩ := ih passed
          have here := kept path (by simp)
          refine ⟨fun other member => ?_, fun other member => kept other (by simp [member])⟩
          cases member with
          | head => exact ⟨path, digest, read, here⟩
          | tail _ inRest => exact later other inRest

theorem hashChecks_passed {hexdigest : Bytes → List Char} {tree : WorkingTree}
    {expected : Manifest} (passed : allPassed (hashChecks hexdigest tree expected) = true)
    {path : List Char} (member : path ∈ expected) {data : Bytes}
    (found : tree.files.stat true tree.root (relativePath path) = .ok (.file data)) :
    expected.lookup path = some (hexdigest data) := by
  obtain ⟨digest, known⟩ := Option.isSome_iff_exists.mp (AList.lookup_isSome.mpr member)
  have entry : (⟨path, digest⟩ : Sigma fun _ : List Char => List Char) ∈ expected.entries :=
    AList.mem_lookup_iff.mp known
  have checked := allPassed_iff.mp passed
    { name := "prebuilt-sha256:" ++ String.ofList path, passed := hexdigest data = digest } (by
      rw [hashChecks, List.mem_filterMap]
      exact ⟨_, List.mem_mergeSort.mpr entry, by simp only [found]⟩)
  rw [known, of_decide_eq_true checked]

theorem hashChecks_passed_iff {hexdigest : Bytes → List Char} {tree : WorkingTree}
    {expected : Manifest} : allPassed (hashChecks hexdigest tree expected) = true ↔
    ∀ path digest, expected.lookup path = some digest → ∀ data,
      tree.files.stat true tree.root (relativePath path) = .ok (.file data) →
        hexdigest data = digest := by
  constructor
  · intro passed path digest known data found
    have member : path ∈ expected := AList.lookup_isSome.mp (by rw [known]; rfl)
    have right := hashChecks_passed passed member found
    exact Option.some.inj (right.symm.trans known)
  · intro right
    rw [allPassed_iff]
    intro check listed
    rw [hashChecks, List.mem_filterMap] at listed
    obtain ⟨⟨path, digest⟩, entry, made⟩ := listed
    have known : expected.lookup path = some digest :=
      AList.mem_lookup_iff.mpr (List.mem_mergeSort.mp entry)
    split at made
    · rename_i data found
      cases made
      exact decide_eq_true (right path digest known data found)
    · cases made

namespace WorkingTree

/-- An entry of the compatibility tree leads to a file with the given bytes. -/
def HoldsPrebuilt (tree : WorkingTree) (names : List Name) (data : Bytes) : Prop :=
  names ∈ tree.prebuiltEntries ∧
    tree.files.stat true tree.root (prebuiltPath names) = .ok (.file data)

variable {tree : WorkingTree} {names : List Name} {data : Bytes}

/-- The files are the entries that lie below the directory and lead to a file. -/
theorem holdsPrebuilt_iff : tree.HoldsPrebuilt names data ↔
    tree.files.stat true tree.root (prebuiltPath []) = .ok .directory ∧
      (∃ base, tree.files.locate true tree.root (prebuiltPath []) = .ok base ∧
        tree.files.node (names.reverse ++ base) ≠ none) ∧ names ≠ [] ∧
      tree.files.stat true tree.root (prebuiltPath names) = .ok (.file data) := by
  have below (base : Location) : names ∈ (descendants tree.listing base).map List.reverse ↔
      tree.files.node (names.reverse ++ base) ≠ none ∧ names ≠ [] := by
    rw [List.mem_map]
    constructor
    · intro listed
      obtain ⟨inner, member, rfl⟩ := listed
      obtain ⟨nonempty, inside⟩ := mem_descendants.mp member
      rw [List.reverse_reverse]
      exact ⟨(tree.lists _).mp inside, by simpa using nonempty⟩
    · intro present
      refine ⟨names.reverse, mem_descendants.mpr ⟨by simpa using present.2, ?_⟩,
        List.reverse_reverse names⟩
      exact (tree.lists _).mpr present.1
  unfold HoldsPrebuilt prebuiltEntries FileSystem.isDir
  cases located : tree.files.locate true tree.root (prebuiltPath []) with
  | error error => simp
  | ok base =>
      cases found : tree.files.stat true tree.root (prebuiltPath []) with
      | error error => simp
      | ok node => cases node <;> simp [below, and_assoc]

theorem prebuiltEntries_valid (entry : names ∈ tree.prebuiltEntries) :
    ∀ name ∈ prebuiltNames ++ names, ValidName name := by
  have below : ∀ name ∈ names, ValidName name := by
    unfold prebuiltEntries at entry
    split at entry
    · split at entry
      · obtain ⟨inner, member, rfl⟩ := List.mem_map.mp entry
        have present := (tree.lists _).mp (mem_descendants.mp member).2
        intro name inside
        exact tree.named _ present name (by simp [List.mem_reverse.mp inside])
      · cases entry
    · cases entry
  intro name member
  cases List.mem_append.mp member with
  | inl front => exact prebuiltNames_valid name front
  | inr back => exact below name back

theorem relativePath_prebuilt (entry : names ∈ tree.prebuiltEntries) :
    relativePath (posixText (prebuiltNames ++ names)) = prebuiltPath names :=
  relativePath_posixText (by simp [prebuiltNames]) (prebuiltEntries_valid entry)

theorem mem_actualPrebuilts {path : List Char} :
    path ∈ tree.actualPrebuilts ↔
      ∃ names data, tree.HoldsPrebuilt names data ∧ path = posixText (prebuiltNames ++ names) := by
  simp only [actualPrebuilts, List.mem_map, List.mem_filter]
  constructor
  · intro listed
    obtain ⟨names, ⟨entry, isFile⟩, rfl⟩ := listed
    unfold FileSystem.isFile at isFile
    split at isFile
    · rename_i data found
      exact ⟨names, data, ⟨entry, found⟩, rfl⟩
    · contradiction
  · intro held
    obtain ⟨names, data, ⟨entry, found⟩, rfl⟩ := held
    exact ⟨names, ⟨entry, by rw [FileSystem.isFile, found]⟩, rfl⟩

end WorkingTree

/-- The entries of a manifest are the files of the tree, each with its digest. -/
structure Pins (hexdigest : Bytes → List Char) (expected : Manifest) (tree : WorkingTree) :
    Prop where
  digest : ∀ names data, tree.HoldsPrebuilt names data →
    expected.lookup (posixText (prebuiltNames ++ names)) = some (hexdigest data)
  held : ∀ path ∈ expected, ∃ names data, tree.HoldsPrebuilt names data ∧
    path = posixText (prebuiltNames ++ names)

theorem pins_of_passed {hexdigest : Bytes → List Char} {tree : WorkingTree} {manifest : List Char}
    (passed : allPassed (prebuiltChecks hexdigest tree manifest) = true) :
    Pins hexdigest (readManifest 1 ∅ (textLines manifest)).2 tree := by
  simp only [prebuiltChecks, allPassed_append, allPassed_cons, decide_eq_true_eq] at passed
  obtain ⟨_, ⟨inExpected, inTree⟩, hashes⟩ := passed
  constructor
  · intro names data holds
    have member : posixText (prebuiltNames ++ names) ∈ tree.actualPrebuilts :=
      WorkingTree.mem_actualPrebuilts.mpr ⟨names, data, holds, rfl⟩
    apply hashChecks_passed hashes (inExpected member)
    rw [WorkingTree.relativePath_prebuilt holds.1]
    exact holds.2
  · intro path member
    exact WorkingTree.mem_actualPrebuilts.mp (inTree member)

theorem Pins.holds {hexdigest : Bytes → List Char} {expected : Manifest}
    {first second : WorkingTree} (firstPins : Pins hexdigest expected first)
    (secondPins : Pins hexdigest expected second) {names : List Name} {data : Bytes}
    (holds : first.HoldsPrebuilt names data) :
    ∃ other, second.HoldsPrebuilt names other ∧ hexdigest other = hexdigest data := by
  have known := firstPins.digest names data holds
  have member : posixText (prebuiltNames ++ names) ∈ expected := by
    rw [← AList.lookup_isSome, known]
    rfl
  obtain ⟨others, other, held, sameText⟩ := secondPins.held _ member
  have samePath := congrArg relativePath sameText
  rw [WorkingTree.relativePath_prebuilt holds.1, WorkingTree.relativePath_prebuilt held.1] at samePath
  have sameNames : names = others := by
    simpa [WorkingTree.prebuiltPath, List.map_inj_right] using samePath
  subst sameNames
  refine ⟨other, held, Option.some.inj ?_⟩
  rw [← secondPins.digest names other held, known]

/-- Two working trees on which the checks pass with one manifest have the same
files with the same digests, and no path of the manifest leaves the tree. -/
theorem prebuilts_pinned (hexdigest : Bytes → List Char) (manifest : List Char)
    (first second : WorkingTree)
    (firstPassed : allPassed (prebuiltChecks hexdigest first manifest) = true)
    (secondPassed : allPassed (prebuiltChecks hexdigest second manifest) = true) :
    (∀ names, (∃ data, first.HoldsPrebuilt names data) ↔
        ∃ data, second.HoldsPrebuilt names data) ∧
      (∀ names firstData secondData, first.HoldsPrebuilt names firstData →
        second.HoldsPrebuilt names secondData → hexdigest firstData = hexdigest secondData) ∧
      ∀ line ∈ textLines manifest, ∃ digest path, words line = [digest, path] ∧
        prebuiltPrefix <+: path ∧ ['.', '.'] ∉ path.splitOn '/' := by
  have firstPins := pins_of_passed firstPassed
  have secondPins := pins_of_passed secondPassed
  refine ⟨fun names => ⟨?_, ?_⟩, fun names firstData secondData firstHolds secondHolds => ?_,
    fun line member => ?_⟩
  · intro held
    obtain ⟨data, holds⟩ := held
    obtain ⟨other, found, _⟩ := firstPins.holds secondPins holds
    exact ⟨other, found⟩
  · intro held
    obtain ⟨data, holds⟩ := held
    obtain ⟨other, found, _⟩ := secondPins.holds firstPins holds
    exact ⟨other, found⟩
  · have known := firstPins.digest names firstData firstHolds
    rw [secondPins.digest names secondData secondHolds] at known
    exact (Option.some.inj known).symm
  · simp only [prebuiltChecks, allPassed_append] at firstPassed
    obtain ⟨path, digest, read, entered⟩ := (readManifest_passed firstPassed.1).1 line member
    obtain ⟨fields, _, inside⟩ := manifestLine_eq_ok read
    obtain ⟨names, data, holds, rfl⟩ := firstPins.held path entered
    have valid := WorkingTree.prebuiltEntries_valid holds.1
    refine ⟨digest, _, fields, inside, fun up => ?_⟩
    rw [splitOn_posixText (by simp [prebuiltNames]) valid] at up
    obtain ⟨name, isName, same⟩ := List.mem_map.mp up
    exact (valid name isName).notUp (String.toList_inj.mp (same.trans (by simp)))

/-- The digest of the empty file. -/
def emptyDigest : List Char :=
  "e3b0c44298fc1c149afbf4c8996fb92427ae41e4649b934ca495991b7852b855".toList

/-- Two working copies with the same files but for the bytes of one of them; the second
has an entry more outside the compatibility tree. -/
def pinnedEntries (byte : UInt8) : List (Location × Node Bytes) :=
  [(["prebuilt"], .directory), (["a15-aidl", "prebuilt"], .directory),
    (["empty", "a15-aidl", "prebuilt"], .file []), (["lib64", "a15-aidl", "prebuilt"], .directory),
    (["libc.so", "lib64", "a15-aidl", "prebuilt"], .file [byte])]

def firstTree : WorkingTree where
  files := .ofEntries (pinnedEntries 1) (by decide)
  root := []
  listing := _
  lists := lists_ofEntries _
  named := by
    intro location present
    have listed := (lists_ofEntries _ location).mpr present
    have every : ∀ location ∈ [] :: (pinnedEntries 1).map Prod.fst, ∀ name ∈ location,
        name ≠ "" ∧ name ≠ "." ∧ name ≠ ".." ∧ '/' ∉ name.toList := by decide
    intro name member
    obtain ⟨nonempty, notHere, notUp, noSeparator⟩ := every location listed name member
    exact ⟨nonempty, notHere, notUp, noSeparator⟩

def secondTree : WorkingTree where
  files := .ofEntries ((["README.md"], .file [3]) :: pinnedEntries 2) (by decide)
  root := []
  listing := _
  lists := lists_ofEntries _
  named := by
    intro location present
    have listed := (lists_ofEntries _ location).mpr present
    have every : ∀ location ∈ [] :: ["README.md"] :: (pinnedEntries 2).map Prod.fst,
        ∀ name ∈ location, name ≠ "" ∧ name ≠ "." ∧ name ≠ ".." ∧ '/' ∉ name.toList := by decide
    intro name member
    obtain ⟨nonempty, notHere, notUp, noSeparator⟩ := every location listed name member
    exact ⟨nonempty, notHere, notUp, noSeparator⟩

/-- A digest that tells files apart by their lengths. -/
def lengthDigest (data : Bytes) : List Char :=
  if data.length = 0 then emptyDigest else List.replicate 64 '0'

def pinnedManifest : List Char := emptyDigest ++ "  prebuilt/a15-aidl/empty\n".toList ++
  List.replicate 64 '0' ++ "  prebuilt/a15-aidl/lib64/libc.so\n".toList

/-- What the lines of the manifest leave. -/
def pinnedDigests : Manifest := (readManifest 1 ∅ (textLines pinnedManifest)).2

theorem pinnedTree_passed (tree : WorkingTree) (contents : List Bytes)
    (complete : tree.actualPrebuilts ⊆ pinnedDigests.keys ∧
      pinnedDigests.keys ⊆ tree.actualPrebuilts)
    (digests : ∀ path ∈ pinnedDigests.keys, ∃ data ∈ contents,
      (tree.files.stat true tree.root (relativePath path)).toOption = some (.file data) ∧
        pinnedDigests.lookup path = some (lengthDigest data)) :
    allPassed (prebuiltChecks lengthDigest tree pinnedManifest) = true := by
  have lines : allPassed (readManifest 1 ∅ (textLines pinnedManifest)).1 = true := by decide +kernel
  simp only [prebuiltChecks, allPassed_append, allPassed_cons, decide_eq_true_eq]
  refine ⟨lines, complete, hashChecks_passed_iff.mpr fun path digest known data found => ?_⟩
  have member : path ∈ pinnedDigests := AList.lookup_isSome.mp (by rw [pinnedDigests, known]; rfl)
  obtain ⟨other, _, opened, right⟩ := digests path (AList.mem_keys.mp member)
  rw [found] at opened
  cases opened
  rw [pinnedDigests, known] at right
  exact (Option.some.inj right).symm

theorem pinnedTrees_passed : allPassed (prebuiltChecks lengthDigest firstTree pinnedManifest) = true ∧
    allPassed (prebuiltChecks lengthDigest secondTree pinnedManifest) = true :=
  ⟨pinnedTree_passed firstTree [[], [1]] (by decide +kernel) (by decide +kernel),
    pinnedTree_passed secondTree [[], [2]] (by decide +kernel) (by decide +kernel)⟩

theorem prebuilts_pinned_twoTrees :
    (∀ names, (∃ data, firstTree.HoldsPrebuilt names data) ↔
        ∃ data, secondTree.HoldsPrebuilt names data) ∧
      (∀ names firstData secondData, firstTree.HoldsPrebuilt names firstData →
        secondTree.HoldsPrebuilt names secondData →
          lengthDigest firstData = lengthDigest secondData) ∧
      ∀ line ∈ textLines pinnedManifest, ∃ digest path, words line = [digest, path] ∧
        prebuiltPrefix <+: path ∧ ['.', '.'] ∉ path.splitOn '/' :=
  prebuilts_pinned _ pinnedManifest firstTree secondTree pinnedTrees_passed.1 pinnedTrees_passed.2

end DashTwrp.VerifyTree
