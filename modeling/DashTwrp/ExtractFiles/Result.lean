import DashTwrp.ExtractFiles.Run
import DashTwrp.Unix.Puts

namespace DashTwrp.ExtractFiles

open DashTwrp.Python DashTwrp.Unix
open DashTwrp.RepackF1 (readFile)

/-! What the script leaves, however far it gets. -/

/-! ### One file -/

/-- A file can be put into a folder of a directory. -/
structure Free (base : Location) (folder file : Name) (fs : FileSystem Bytes) : Prop where
  directory : fs.node base = some .directory
  inFolder : fs.node (folder :: base) = none ∨ fs.node (folder :: base) = some .directory
  entry : fs.node (file :: folder :: base) = none ∨
    ∃ old, fs.node (file :: folder :: base) = some (.file old)

section

variable {fs after : FileSystem Bytes} {base sourceStart : Location} {folder file : Name}
  {source : List Name} {data : Bytes}

theorem Free.unlinked (free : Free base folder file fs) : Unlinked fs base [folder, file] := by
  have inFolder : Unlinked fs base [folder] := unlinked_single free.directory fun target found => by
    rcases free.inFolder with absent | directory
    · rw [absent] at found
      cases found
    · rw [directory] at found
      cases found
  refine unlinked_concat inFolder fun target found => ?_
  change fs.node (file :: folder :: base) = _ at found
  rcases free.entry with absent | there
  · rw [absent] at found
    cases found
  · obtain ⟨old, isFile⟩ := there
    rw [isFile] at found
    cases found

theorem Free.makedirs (free : Free base folder file fs) :
    ∃ made, Python.makedirs true fs base (.ofNames [folder]) = .ok made ∧
      made.node = Function.update fs.node (folder :: base) (some .directory) := by
  have unlinked : Unlinked fs base [folder] := free.unlinked.prefix_of ⟨[file], rfl⟩
  rcases free.inFolder with absent | directory
  · have located : fs.locate false base (.ofNames [folder]) = .ok (folder :: base) :=
      locate_entry free.directory (by rw [absent]; simp) false
    refine ⟨fs.create folder base .directory free.directory absent, ?_, rfl⟩
    change mkdir true fs base (.ofNames [folder]) = _
    rw [mkdir, FileSystem.makeNode, located]
    simp only [FileSystem.createAt_free free.directory absent]
  · refine ⟨fs, makedirs_existing unlinked (by simp) directory, ?_⟩
    rw [← directory, Function.update_eq_self]

/-- The entry of the target makes way. -/
theorem Free.unlinkTarget (free : Free base folder file fs) (plain : Unlinked fs sourceStart source)
    (found : fs.node (place sourceStart source) = some (.file data))
    (off : ¬ base <:+ place sourceStart source) :
    ∃ cleared, ExtractFiles.unlinkTarget fs sourceStart (.ofNames source) base
        (.ofNames [folder, file]) = .ok cleared ∧
      Without (file :: folder :: base) fs cleared := by
  unfold ExtractFiles.unlinkTarget
  rcases free.entry with absent | there
  · have missing : fs.lexists base (.ofNames [folder, file]) = false := by
      rw [FileSystem.lexists_eq_false_iff]
      intro location located
      rw [free.unlinked.locate_ends located, place_cons, place_cons, place_nil, absent]
    rw [missing]
    exact ⟨fs, rfl, without_of_absent absent⟩
  · obtain ⟨old, isFile⟩ := there
    have isThere : fs.node (place base [folder, file]) = some (.file old) := by
      rw [place_cons, place_cons, place_nil, isFile]
    have present : fs.lexists base (.ofNames [folder, file]) = true := by
      rw [FileSystem.lexists, (free.unlinked.stat_iff false).mpr isThere]
      rfl
    have differ : fs.locate true sourceStart (.ofNames source) ≠
        fs.locate false base (.ofNames [folder, file]) := by
      rw [plain.locate_present (by rw [found]; simp),
        free.unlinked.locate_present (by rw [isThere]; simp)]
      intro same
      exact off (Except.ok.inj same ▸ suffix_place base [folder, file])
    obtain ⟨cleared, removed, without⟩ := osRemove_file free.unlinked isThere
    rw [if_pos present, if_neg differ]
    exact ⟨cleared, removed, without⟩

theorem writeFile_free {front : List Name} {last : Name}
    (unlinked : Unlinked fs base (front ++ [last]))
    (inside : fs.node (place base front) = some .directory)
    (free : fs.node (place base (front ++ [last])) = none) (data : Bytes) :
    ∃ after, writeFile fs base (.ofNames (front ++ [last])) data = .ok after ∧
      after.node = Function.update fs.node (place base (front ++ [last])) (some (.file data)) := by
  have located : fs.locate true base (.ofNames (front ++ [last])) =
      .ok (place base (front ++ [last])) := by
    refine unlinked.locate_below fun other final split => ?_
    rw [← (List.append_inj' split rfl).1, inside]
  rw [place_concat] at located free ⊢
  refine ⟨fs.create last (place base front) (.file data) inside free, ?_, rfl⟩
  unfold writeFile
  rw [located]
  simp only
  split
  · rename_i found
    rw [free] at found
    cases found
  · rename_i found
    rw [free] at found
    cases found
  · rename_i found
    rw [free] at found
    cases found
  · exact FileSystem.createAt_free inside free

/-- A file is installed where one can be put. -/
theorem install_free (free : Free base folder file fs) (plain : Unlinked fs sourceStart source)
    (found : fs.node (place sourceStart source) = some (.file data))
    (off : ¬ base <:+ place sourceStart source) :
    ∃ after, install fs sourceStart (.ofNames source) base (.ofNames [folder, file]) = .ok after ∧
      NodePut base [folder, file] (.file data) fs after := by
  obtain ⟨made, makes, changed⟩ := free.makedirs
  have madeFree : Free base folder file made := by
    refine ⟨?_, .inr ?_, ?_⟩
    · rw [changed, Function.update_of_ne (by simp), free.directory]
    · rw [changed, Function.update_self]
    · rw [changed, Function.update_of_ne (by simp)]
      exact free.entry
  have outside : AgreeOutside base fs made := fun other under => by
    rw [changed, Function.update_of_ne]
    exact fun here => under (here ▸ List.suffix_cons _ _)
  have madePlain := plain.of_agreeOutside outside off
  have madeFound : made.node (place sourceStart source) = some (.file data) := by
    rw [outside _ off, found]
  obtain ⟨cleared, clears, without⟩ := madeFree.unlinkTarget madePlain madeFound off
  have inFolder : cleared.node (place base [folder]) = some .directory := by
    rw [place_cons, place_nil, without, if_neg (not_suffix_tail _), changed, Function.update_self]
  have absent : cleared.node (place base ([folder] ++ [file])) = none :=
    (without _).trans (if_pos (List.suffix_refl _))
  have unlinked : Unlinked cleared base ([folder] ++ [file]) :=
    madeFree.unlinked.of_noNewLinks without.noNewLinks
  obtain ⟨after, writes, written⟩ := writeFile_free unlinked inFolder absent data
  refine ⟨after, ?_, ?_, fun other apart => ?_⟩
  · have reads : readFile made sourceStart (.ofNames source) = .ok data := by
      rw [readFile, (madePlain.stat_iff true).mpr madeFound]
    have leaf : fs.isDir base (.ofNames [folder, file]) = false := by
      rw [← Bool.not_eq_true, free.unlinked.isDir_iff]
      rcases free.entry with absent | there
      · rw [show fs.node (place base [folder, file]) = none from absent]
        simp
      · obtain ⟨old, isFile⟩ := there
        rw [show fs.node (place base [folder, file]) = some (.file old) from isFile]
        simp
    rw [install, leaf, if_neg Bool.false_ne_true]
    change (Python.makedirs true fs base (.ofNames [folder]) >>= _) = _
    rw [makes]
    change (readFile made sourceStart (.ofNames source) >>= _) = _
    rw [reads]
    change (ExtractFiles.unlinkTarget made sourceStart (.ofNames source) base _ >>= _) = _
    rw [clears]
    exact writes
  · exact (congrFun written _).trans (Function.update_self _ _ _)
  · have notFile : other ≠ file :: folder :: base := apart [folder, file] (List.prefix_refl _)
    have notFolder : other ≠ folder :: base := apart [folder] ⟨[file], rfl⟩
    change after.node = Function.update cleared.node (file :: folder :: base) _ at written
    rw [written, Function.update_of_ne notFile, without other]
    split
    · rename_i under
      obtain ⟨inner, rfl⟩ := under
      have leaf : fs.node (file :: folder :: base) ≠ some .directory := by
        rcases free.entry with absent | there
        · rw [absent]
          simp
        · obtain ⟨old, isFile⟩ := there
          rw [isFile]
          simp
      exact (fs.none_below inner (fun top => notFile (by rw [top, List.nil_append])) leaf).symm
    · rw [changed, Function.update_of_ne notFolder]

theorem Free.put {newFolder newFile : Name} (free : Free base folder file fs) {data : Bytes}
    (put : NodePut base [newFolder, newFile] (.file data) fs after) :
    Free base folder file after := by
  have above : after.node (newFolder :: base) = some .directory :=
    put.above (show [newFolder] <+: [newFolder, newFile] from ⟨[newFile], rfl⟩) (by simp)
  have kept (names : List Name) (off : ¬ names <+: [newFolder, newFile]) :
      after.node (place base names) = fs.node (place base names) := put.same_names off
  refine ⟨put.above List.nil_prefix (by simp), ?_, ?_⟩
  · by_cases same : folder = newFolder
    · exact .inr (same ▸ above)
    · have keptFolder : after.node (folder :: base) = fs.node (folder :: base) :=
        kept [folder] (by simpa using same)
      rw [keptFolder]
      exact free.inFolder
  · by_cases same : folder = newFolder ∧ file = newFile
    · obtain ⟨rfl, rfl⟩ := same
      exact .inr ⟨data, put.there⟩
    · have keptFile : after.node (file :: folder :: base) = fs.node (file :: folder :: base) :=
        kept [folder, file] fun within => same (by simpa using within.eq_of_length rfl)
      rw [keptFile]
      exact free.entry

end

/-! ### The script -/

section

variable (sha256sum : Location → Bytes → List Char) (deviceRoot : Location) (fs : FileSystem Bytes)

def sourceOf (copy : Copy) : Location := place (workspaceRoot deviceRoot) copy.source

/-- The source is a file with the digest of the script. -/
def hasDigest (copy : Copy) : Bool :=
  match fs.node (sourceOf deviceRoot copy) with
  | some (.file data) => sha256sum (sourceOf deviceRoot copy) data = copy.sha256
  | _ => false

/-- There are no links on the script's paths, nothing is in the way of its files, and they
do not come from the device tree itself. -/
structure PlainHost : Prop where
  sources : ∀ copy ∈ copies, Unlinked fs (workspaceRoot deviceRoot) copy.source
  apart : ∀ copy ∈ copies, ¬ deviceRoot <:+ sourceOf deviceRoot copy
  free : ∀ copy ∈ copies, Free deviceRoot copy.folder copy.file fs

/-- The files of some calls are copies of their sources, and only the ways there have
changed. -/
structure Extracted (done : List Copy) (after : FileSystem Bytes) : Prop where
  there : ∀ copy ∈ done, after.node (place deviceRoot copy.destination) =
    fs.node (sourceOf deviceRoot copy)
  same : ∀ other, (∀ copy ∈ done, ∀ front, front <+: copy.destination →
    other ≠ place deviceRoot front) → after.node other = fs.node other

end

section

variable {sha256sum : Location → Bytes → List Char} {deviceRoot : Location}
  {fs current after : FileSystem Bytes} {done : List Copy} {copy : Copy}

theorem hasDigest_iff : hasDigest sha256sum deviceRoot fs copy = true ↔
    ∃ data, fs.node (sourceOf deviceRoot copy) = some (.file data) ∧
      sha256sum (sourceOf deviceRoot copy) data = copy.sha256 := by
  unfold hasDigest
  split
  · rename_i data found
    simp [found]
  · rename_i other
    simp only [Bool.false_eq_true, false_iff]
    intro found
    obtain ⟨data, isFile, _⟩ := found
    exact other data isFile

theorem Extracted.outside (extracted : Extracted deviceRoot fs done after) :
    AgreeOutside deviceRoot fs after :=
  fun _ off => extracted.same _ fun _ _ _ _ here => off (here ▸ suffix_place _ _)

theorem PlainHost.hasDigest_eq (host : PlainHost deviceRoot fs) (member : copy ∈ copies)
    (outside : AgreeOutside deviceRoot fs current) :
    hasDigest sha256sum deviceRoot current copy = hasDigest sha256sum deviceRoot fs copy := by
  rw [hasDigest, hasDigest, outside _ (host.apart copy member)]

theorem PlainHost.put (host : PlainHost deviceRoot fs) {data : Bytes}
    (put : NodePut deviceRoot copy.destination (.file data) fs after) :
    PlainHost deviceRoot after where
  sources := fun other member =>
    (host.sources other member).of_agreeOutside (fun _ off => put.outside off) (host.apart other member)
  apart := host.apart
  free := fun other member => (host.free other member).put put

theorem copyVerified_good (host : PlainHost deviceRoot fs) (member : copy ∈ copies)
    (good : hasDigest sha256sum deviceRoot fs copy = true) :
    ∃ after data, copyVerified fs sha256sum deviceRoot copy = .ok after ∧
      fs.node (sourceOf deviceRoot copy) = some (.file data) ∧
      NodePut deviceRoot copy.destination (.file data) fs after := by
  obtain ⟨data, found, digest⟩ := hasDigest_iff.mp good
  have plain := host.sources copy member
  obtain ⟨after, installed, put⟩ :=
    install_free (host.free copy member) plain found (host.apart copy member)
  have reads : readFile fs (workspaceRoot deviceRoot) (.ofNames copy.source) = .ok data := by
    rw [readFile, (plain.stat_iff true).mpr found]
  refine ⟨after, data, ?_, found, put⟩
  unfold copyVerified
  rw [reads]
  change (if sha256sum (sourceOf deviceRoot copy) data ≠ copy.sha256 then _ else _) = _
  rw [if_neg (not_not.mpr digest), show copy.destination = [copy.folder, copy.file] from rfl, installed]
  rfl

theorem copyVerified_bad (host : PlainHost deviceRoot fs) (member : copy ∈ copies)
    (bad : hasDigest sha256sum deviceRoot fs copy = false) :
    ∃ error, copyVerified fs sha256sum deviceRoot copy = .error error := by
  cases made : copyVerified fs sha256sum deviceRoot copy with
  | error error => exact ⟨error, rfl⟩
  | ok after =>
      exfalso
      unfold copyVerified at made
      obtain ⟨data, reads, made⟩ := except_bind_eq_ok made
      rw [mapError_eq_ok, readFile] at reads
      split at reads
      · cases reads
      · rename_i found
        cases reads
        split at made
        · cases made
        · rename_i digest
          have there := ((host.sources copy member).stat_iff true).mp found
          have good := hasDigest_iff.mpr ⟨data, there, not_not.mp digest⟩
          rw [bad] at good
          cases good
      · cases reads

theorem copies_separate : copies.Pairwise fun first second =>
    Separate first.destination second.destination := by
  decide

theorem Extracted.put (extracted : Extracted deviceRoot fs done current)
    (separate : ∀ earlier ∈ done, Separate earlier.destination copy.destination) {data : Bytes}
    (found : fs.node (sourceOf deviceRoot copy) = some (.file data))
    (put : NodePut deviceRoot copy.destination (.file data) current after) :
    Extracted deviceRoot fs (done ++ [copy]) after where
  there := by
    intro other member
    rcases List.mem_append.mp member with earlier | last
    · rw [put.same_names (separate other earlier).1, extracted.there other earlier]
    · rw [List.mem_singleton.mp last, put.there, found]
  same := by
    intro other off
    rw [put.same other (off copy (by simp)),
      extracted.same other fun earlier member => off earlier (List.mem_append_left _ member)]

/-- What is there already is not changed. -/
theorem Extracted.unchanged (extracted : Extracted deviceRoot fs done after)
    (there : ∀ copy ∈ done, fs.node (place deviceRoot copy.destination) =
      fs.node (sourceOf deviceRoot copy))
    (present : ∀ copy ∈ done, fs.node (sourceOf deviceRoot copy) ≠ none) : after = fs := by
  have above {tree : FileSystem Bytes} {names front : List Name} {node : Option (Node Bytes)}
      (inside : front <+: names) (there : tree.node (place deviceRoot names) = node)
      (present : node ≠ none) (proper : front ≠ names) :
      tree.node (place deviceRoot front) = some .directory := by
    obtain ⟨back, rfl⟩ := inside
    rw [place_append, place] at there
    have longer : back ≠ [] := fun empty => proper (by rw [empty, List.append_nil])
    exact tree.directory_above back.reverse (by simpa using longer) (there ▸ present)
  refine FileSystem.ext (funext fun other => ?_)
  by_cases onWay : ∃ copy ∈ done, ∃ front, front <+: copy.destination ∧ other = place deviceRoot front
  · obtain ⟨copy, member, front, inside, rfl⟩ := onWay
    have before := there copy member
    have behind := extracted.there copy member
    by_cases whole : front = copy.destination
    · rw [whole, behind, before]
    · rw [above inside before (present copy member) whole,
        above inside behind (present copy member) whole]
  · refine extracted.same other fun copy member front inside here => onWay ?_
    exact ⟨copy, member, front, inside, here⟩

/-- What is extracted again is there already. -/
theorem Extracted.again {final : FileSystem Bytes} (extracted : Extracted deviceRoot fs done after)
    (present : ∀ copy ∈ done, fs.node (sourceOf deviceRoot copy) ≠ none)
    (apart : ∀ copy ∈ done, ¬ deviceRoot <:+ sourceOf deviceRoot copy)
    (again : Extracted deviceRoot after done final) : final = after := by
  have source (copy : Copy) (member : copy ∈ done) :
      after.node (sourceOf deviceRoot copy) = fs.node (sourceOf deviceRoot copy) :=
    extracted.outside _ (apart copy member)
  refine again.unchanged (fun copy member => ?_) fun copy member => ?_
  · rw [source copy member, extracted.there copy member]
  · rw [source copy member]
    exact present copy member

/-- What holds when some of the calls are made. -/
structure Progress (deviceRoot : Location) (fs : FileSystem Bytes) (done : List Copy)
    (current : FileSystem Bytes) : Prop where
  plain : PlainHost deviceRoot current
  extracted : Extracted deviceRoot fs done current

/-- The script copies the files with the right digests, up to the first that has another. -/
theorem main_progress (sha256sum : Location → Bytes → List Char) (host : PlainHost deviceRoot fs) :
    ∃ after, main sha256sum deviceRoot fs =
        (if copies.all (hasDigest sha256sum deviceRoot fs) then 0 else 1, after) ∧
      Progress deviceRoot fs (copies.takeWhile (hasDigest sha256sum deviceRoot fs)) after := by
  have start : Progress deviceRoot fs [] fs := ⟨host, fun _ member => by simp at member, fun _ _ => rfl⟩
  refine runCommands_rule (Progress deviceRoot fs) (hasDigest sha256sum deviceRoot fs) start ?_ ?_
  · intro done copy rest current split progress good
    have member : copy ∈ copies := by simp [split]
    rw [← host.hasDigest_eq member progress.extracted.outside] at good
    obtain ⟨after, data, made, found, put⟩ := copyVerified_good progress.plain member good
    rw [progress.extracted.outside _ (host.apart copy member)] at found
    have separate := copies_separate
    rw [split, List.pairwise_append] at separate
    have apart (earlier : Copy) (inDone : earlier ∈ done) :
        Separate earlier.destination copy.destination :=
      separate.2.2 earlier inDone copy List.mem_cons_self
    exact ⟨after, made, progress.plain.put put, progress.extracted.put apart found put⟩
  · intro done copy rest current split progress bad
    have member : copy ∈ copies := by simp [split]
    rw [← host.hasDigest_eq member progress.extracted.outside] at bad
    exact copyVerified_bad progress.plain member bad

theorem takeWhile_congr {α : Type} {items : List α} {one other : α → Bool}
    (same : ∀ item ∈ items, one item = other item) : items.takeWhile one = items.takeWhile other := by
  induction items with
  | nil => rfl
  | cons item rest ih =>
      rw [List.takeWhile_cons, List.takeWhile_cons, same item List.mem_cons_self,
        ih fun later member => same later (List.mem_cons_of_mem _ member)]

/-- The script copies each file with the right digest up to the first that has another,
its status says whether that is all of them, and a second run changes nothing. -/
theorem main_extracts (sha256sum : Location → Bytes → List Char) (host : PlainHost deviceRoot fs) :
    ∃ status after, main sha256sum deviceRoot fs = (status, after) ∧
      (status = 0 ∨ status = 1) ∧
      (status = 0 ↔ ∀ copy ∈ copies, hasDigest sha256sum deviceRoot fs copy = true) ∧
      Extracted deviceRoot fs (copies.takeWhile (hasDigest sha256sum deviceRoot fs)) after ∧
      main sha256sum deviceRoot after = (status, after) := by
  obtain ⟨after, ran, progress⟩ := main_progress sha256sum host
  obtain ⟨final, ranAgain, again⟩ := main_progress sha256sum progress.plain
  have sameTest : ∀ copy ∈ copies, hasDigest sha256sum deviceRoot after copy =
      hasDigest sha256sum deviceRoot fs copy :=
    fun copy member => host.hasDigest_eq member progress.extracted.outside
  have sameDone := takeWhile_congr sameTest
  have sameStatus : copies.all (hasDigest sha256sum deviceRoot after) =
      copies.all (hasDigest sha256sum deviceRoot fs) := by
    rw [Bool.eq_iff_iff, List.all_eq_true, List.all_eq_true]
    exact forall₂_congr fun copy member => by rw [sameTest copy member]
  have unchanged : final = after := by
    have extractedAgain := again.extracted
    rw [sameDone] at extractedAgain
    refine progress.extracted.again (fun copy member => ?_) (fun copy member => ?_) extractedAgain
    · obtain ⟨data, found, _⟩ := hasDigest_iff.mp (List.mem_takeWhile_imp member)
      rw [found]
      simp
    · exact host.apart copy ((List.takeWhile_sublist _).subset member)
  refine ⟨_, after, ran, ?_, ?_, progress.extracted, ?_⟩
  · split
    · exact .inl rfl
    · exact .inr rfl
  · rw [← List.all_eq_true]
    split <;> simp_all
  · rw [ranAgain, unchanged, sameStatus]

end

/-! ### A run that stops at the second file -/

/-- A working copy next to the unpacked stock image. -/
def stockFolders : List (Location × Node Bytes) :=
  [["stock"], ["stock", "vendor_boot"], ["stock", "vendor_boot", "aosp_unpack"], ["stock", "trees"],
    ["stock", "trees", "recovery"], ["stock", "trees", "recovery", "system"],
    ["stock", "trees", "recovery", "system", "etc"], ["device"], ["device", "xiaomi"],
    ["device", "xiaomi", "dash"]].map fun names => (place [] names, .directory)

def stockEntries : List (Location × Node Bytes) :=
  stockFolders ++ copies.map fun copy => (place [] copy.source, .file [1])

def stockHost : FileSystem Bytes := .ofEntries stockEntries (by decide +kernel)

def dash : Location := ["dash", "xiaomi", "device"]

/-- All three files have the digest of the first one. -/
def sameDigests : Location → Bytes → List Char :=
  fun _ _ => "2636d5a861e909f5bf32fb3b5c80b25824fbb6591e31a21b6b1326b6dc52d7e3".toList

theorem stockHost_plain : PlainHost dash stockHost where
  sources := fun _ _ => unlinked_ofEntries _ (by decide +kernel) _ _
  apart := by decide
  free := by
    have nodes : stockHost.node dash = some .directory ∧ ∀ copy ∈ copies,
        stockHost.node (copy.folder :: dash) = none ∧
          stockHost.node (copy.file :: copy.folder :: dash) = none := by decide +kernel
    exact fun copy member => ⟨nodes.1, .inl (nodes.2 copy member).1, .inl (nodes.2 copy member).2⟩

theorem main_extracts_stockHost : ∃ after, main sameDigests dash stockHost = (1, after) ∧
    main sameDigests dash after = (1, after) ∧
      after.node (place dash ["prebuilt", "dash-stock.dtb"]) = some (.file [1]) ∧
      after.node (place dash ["evidence", "stock-recovery.fstab"]) = none := by
  obtain ⟨status, after, ran, status_cases, all, extracted, again⟩ :=
    main_extracts sameDigests stockHost_plain
  have made : copies.takeWhile (hasDigest sameDigests dash stockHost) = copies.take 1 := by
    decide +kernel
  have notAll : ¬ ∀ copy ∈ copies, hasDigest sameDigests dash stockHost copy = true := by
    decide +kernel
  rw [made] at extracted
  have stopped : status = 1 := status_cases.resolve_left fun zero => notAll (all.mp zero)
  subst stopped
  refine ⟨after, ran, again, ?_, ?_⟩
  · have source : stockHost.node (place [] ["stock", "vendor_boot", "aosp_unpack", "dtb"]) =
        some (.file [1]) := by decide +kernel
    exact (extracted.there _ (List.mem_singleton_self _)).trans source
  · have free : stockHost.node (place dash ["evidence", "stock-recovery.fstab"]) = none := by
      decide +kernel
    refine (extracted.same _ fun copy member front within here => ?_).trans free
    have apart : ∀ copy ∈ copies.take 1,
        ¬ ["evidence", "stock-recovery.fstab"] <+: copy.destination := by decide
    exact apart copy member (place_inj.mp here ▸ within)

end DashTwrp.ExtractFiles
