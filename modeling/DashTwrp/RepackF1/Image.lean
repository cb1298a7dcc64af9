import DashTwrp.RepackF1.Fixpoint
import DashTwrp.RepackF1.History
import DashTwrp.VendorBoot.Chain

namespace DashTwrp.RepackF1

open DashTwrp.Python DashTwrp.Unix DashTwrp.VendorBoot

/-! The repack tool from end to end: what is in the image that it writes, read and
unpacked the way the tool itself reads and unpacks its inputs. -/

section

variable (tools : Tools)

/-- The tree in the F1 of an image. -/
def f1Tree (d : Bytes) : Except RunError (FileSystem Bytes) := do
  let img ← (rd d).mapError .read
  let f1 ← secondPayload img
  unpacked tools f1

/-- The F0 of an image. -/
def f0Payload (d : Bytes) : Except RunError Bytes := do
  let img ← (rd d).mapError .read
  match img.frags with
  | f0 :: _ => pure f0.payload
  | [] => .error (.repack .indexError)

/-- A run without a file that an earlier one has packed, on trees and listings as the
merge expects them, whose archive unpacks to the tree it was made of. -/
structure SoundRun (readings : Readings) (template ci : Bytes) (host : FileSystem Bytes) : Prop where
  directory : host.node tmp = some .directory
  left : ∀ name ∈ workDirs, host.node (name :: tmp) = none ∨ host.node (name :: tmp) = some .directory
  clean : host.node (packedName :: tmp) = none
  trees : ∀ tpl tplF1 ciF1 withCi before, inputs template ci = .ok (tpl, tplF1, ciF1) →
    uz tools host ciF1 "ci_dir" = .ok withCi → uz tools withCi tplF1 "tp_dir" = .ok before →
      MergeInput before tmp ∧
        MergeWalks readings.template readings.merged readings.pruned readings.bins before tmp
  lossless : ∀ tpl merged tree cpio bytes,
    mergeImages tools readings template ci host = .ok (tpl, merged) →
      subtreeAt merged (f1Dir tmp) = .ok tree → archiveF1 tools merged = .ok cpio →
        tools.pack cpio = .ok (some bytes) → unpacked tools bytes = .ok tree

end

section

variable {tools : Tools} {readings : Readings} {template ci out : Bytes} {tpl : Image}
  {host : FileSystem Bytes}

theorem uz_ok {fs after : FileSystem Bytes} {data : Bytes} {dest : Name}
    (directory : fs.node tmp = some .directory)
    (left : fs.node (dest :: tmp) = none ∨ fs.node (dest :: tmp) = some .directory)
    (made : uz tools fs data dest = .ok after) :
    ∃ tree, unpacked tools data = .ok tree ∧ Planted dest fs tree after := by
  have ends : Matches (Planted dest fs) (unpacked tools data) (uz tools fs data dest) :=
    uz_planted directory left
  rw [made] at ends
  cases extracted : unpacked tools data with
  | error error =>
      rw [extracted] at ends
      exact ends.elim
  | ok tree =>
      rw [extracted] at ends
      exact ⟨tree, rfl, ends⟩

theorem inputs_eq_ok {tplF1 ciF1 : Bytes} (read : inputs template ci = .ok (tpl, tplF1, ciF1)) :
    ∃ ciImg, rd template = .ok tpl ∧ rd ci = .ok ciImg ∧ secondPayload tpl = .ok tplF1 ∧
      secondPayload ciImg = .ok ciF1 := by
  unfold inputs at read
  obtain ⟨tplRead, readTemplate, read⟩ := except_bind_eq_ok read
  obtain ⟨ciRead, readCi, read⟩ := except_bind_eq_ok read
  obtain ⟨tplSecond, templateF1, read⟩ := except_bind_eq_ok read
  obtain ⟨ciSecond, ciF1Read, read⟩ := except_bind_eq_ok read
  cases read
  exact ⟨ciRead, mapError_eq_ok.mp readTemplate, mapError_eq_ok.mp readCi, templateF1, ciF1Read⟩

theorem f1Tree_of_read {d f1 : Bytes} {img : Image} {tree : FileSystem Bytes} (read : rd d = .ok img)
    (second : secondPayload img = .ok f1) (extracted : unpacked tools f1 = .ok tree) :
    f1Tree tools d = .ok tree := by
  unfold f1Tree
  rw [read]
  change (secondPayload img >>= fun f1 => unpacked tools f1) = _
  rw [second]
  exact extracted

theorem placed_inside {after tree : FileSystem Bytes} {dest : Name} {rel : List Name}
    (inside : ∀ inner, after.node (inner ++ dest :: tmp) = tree.node inner) :
    after.node (place (dest :: tmp) rel) = nodesAt tree rel := by
  rw [nodesAt, place, place, List.append_nil, inside]

/-- The tree on disk behind the merge. -/
theorem mergeImages_ok {merged : FileSystem Bytes} (run : SoundRun tools readings template ci host)
    (made : mergeImages tools readings template ci host = .ok (tpl, merged)) :
    ∃ tpTree ciTree, rd template = .ok tpl ∧ f1Tree tools template = .ok tpTree ∧
      f1Tree tools ci = .ok ciTree ∧ merged.node tmp = some .directory ∧
      merged.node (packedName :: tmp) = none ∧
      MergedNodes (nodesAt tpTree) (nodesAt ciTree) (f1Node merged tmp) := by
  unfold mergeImages at made
  obtain ⟨⟨tplRead, tplF1, ciF1⟩, read, made⟩ := except_bind_eq_ok made
  obtain ⟨after, merges, made⟩ := except_bind_eq_ok made
  cases made
  unfold mergeTrees at merges
  obtain ⟨withCi, extractsCi, merges⟩ := except_bind_eq_ok merges
  obtain ⟨before, extractsTp, merges⟩ := except_bind_eq_ok merges
  obtain ⟨ciImg, readTemplate, readCi, templateF1, ciSecond⟩ := inputs_eq_ok read
  obtain ⟨ciTree, ciUnpacked, ciPlanted⟩ :=
    uz_ok run.directory (run.left "ci_dir" (by decide)) extractsCi
  have withCiTmp : withCi.node tmp = some .directory := by
    rw [ciPlanted.outside _ (not_suffix_tail tmp), run.directory]
  have tpLeft := run.left "tp_dir" (by decide)
  rw [← ciPlanted.outside _ (by decide)] at tpLeft
  obtain ⟨tpTree, tpUnpacked, tpPlanted⟩ := uz_ok withCiTmp tpLeft extractsTp
  obtain ⟨input, walks⟩ := run.trees tpl tplF1 ciF1 withCi before read extractsCi extractsTp
  obtain ⟨outside, nodes⟩ := mergeF1_nodes input walks (mapError_eq_ok.mp merges)
  have templateNodes : tpNode before tmp = nodesAt tpTree :=
    funext fun rel => placed_inside tpPlanted.inside
  have ciNodes : ciNode before tmp = nodesAt ciTree := by
    funext rel
    have off : ¬ tpDir tmp <:+ place (ciDir tmp) rel := sibling_outside (by decide) rel
    exact (tpPlanted.outside _ off).trans (placed_inside ciPlanted.inside)
  rw [templateNodes, ciNodes] at nodes
  refine ⟨tpTree, ciTree, readTemplate, f1Tree_of_read readTemplate templateF1 tpUnpacked,
    f1Tree_of_read readCi ciSecond ciUnpacked, ?_, ?_, nodes⟩
  · rw [outside _ (not_suffix_tail tmp), tpPlanted.outside _ (not_suffix_tail tmp), withCiTmp]
  · rw [outside _ (by decide), tpPlanted.outside _ (by decide), ciPlanted.outside _ (by decide),
      run.clean]

theorem subtreeAt_eq_ok {φ : Type} {fs tree : FileSystem φ} {location : Location}
    (read : subtreeAt fs location = .ok tree) :
    ∀ inner, tree.node inner = fs.node (inner ++ location) := by
  unfold subtreeAt at read
  split at read
  · cases read
    exact fun _ => rfl
  · cases read
  · cases read

/-- The F1 that is packed is that of the new tree. -/
theorem pk_eq_ok {fs : FileSystem Bytes} {f1New : Bytes} (directory : fs.node tmp = some .directory)
    (clean : fs.node (packedName :: tmp) = none) (packed : pk tools fs = .ok f1New) :
    ∃ tree cpio, subtreeAt fs (f1Dir tmp) = .ok tree ∧ archiveF1 tools fs = .ok cpio ∧
      tools.pack cpio = .ok (some f1New) := by
  rw [pk_eq directory (.inl clean)] at packed
  obtain ⟨cpio, archives, packed⟩ := except_bind_eq_ok packed
  obtain ⟨written, packs, read⟩ := except_bind_eq_ok packed
  have archived := archives
  unfold archiveF1 at archived
  obtain ⟨tree, subtree, _⟩ := except_bind_eq_ok archived
  rw [clean] at read
  cases written with
  | none => cases read
  | some bytes =>
      cases read
      exact ⟨tree, cpio, mapError_eq_ok.mp subtree, archives, packs⟩

/-- What the tool's own reader finds in an image of the tool. -/
theorem repacked_payloads {d f1New : Bytes} (read : rd d = .ok tpl) (ordinary : VendorBoot.Ordinary tpl)
    (made : repack tpl f1New = .ok out) :
    (∃ again, rd out = .ok again ∧ secondPayload again = .ok f1New) ∧
      ∃ f0, f0Payload d = .ok f0 ∧ f0Payload out = .ok f0 := by
  obtain ⟨first, second, rest, dStart, count, frags, _, _, readBack⟩ :=
    rd_repacked read ordinary made
  refine ⟨⟨_, readBack, rfl⟩, first.payload, ?_, ?_⟩
  · rw [f0Payload, read]
    change (match tpl.frags with
      | f0 :: _ => Except.ok f0.payload
      | [] => Except.error (RunError.repack .indexError)) = _
    rw [frags]
  · rw [f0Payload, readBack]
    rfl

/-- `out` is an image made of `tpl` whose F1 unpacks to `tree`. -/
def HoldsTree (tools : Tools) (tpl : Image) (tree : FileSystem Bytes) (out : Bytes) : Prop :=
  ∃ f1New, repack tpl f1New = .ok out ∧ unpacked tools f1New = .ok tree

theorem HoldsTree.f1Tree {d : Bytes} {tree : FileSystem Bytes} (holds : HoldsTree tools tpl tree out)
    (read : rd d = .ok tpl) (ordinary : VendorBoot.Ordinary tpl) : f1Tree tools out = .ok tree := by
  obtain ⟨f1New, made, extracted⟩ := holds
  obtain ⟨⟨again, readBack, second⟩, _⟩ := repacked_payloads read ordinary made
  exact f1Tree_of_read readBack second extracted

/-- The image that `main` writes holds the merge of the two F1 trees as its F1, and
the template's F0. -/
theorem main_image (run : SoundRun tools readings template ci host)
    (read : rd template = .ok tpl) (ordinary : VendorBoot.Ordinary tpl)
    (made : main tools readings template ci host = .ok out) :
    ∃ tpTree ciTree new, f1Tree tools template = .ok tpTree ∧ f1Tree tools ci = .ok ciTree ∧
      HoldsTree tools tpl new out ∧ f1Tree tools out = .ok new ∧
      MergedNodes (nodesAt tpTree) (nodesAt ciTree) (nodesAt new) ∧
      ∃ f0, f0Payload template = .ok f0 ∧ f0Payload out = .ok f0 := by
  unfold main at made
  obtain ⟨⟨tplRead, merged⟩, merges, made⟩ := except_bind_eq_ok made
  obtain ⟨f1New, packs, made⟩ := except_bind_eq_ok made
  obtain ⟨tpTree, ciTree, readTemplate, template, ciRead, directory, clean, nodes⟩ :=
    mergeImages_ok run merges
  rw [read] at readTemplate
  cases readTemplate
  have repacked := mapError_eq_ok.mp made
  obtain ⟨new, cpio, subtree, archives, packed⟩ := pk_eq_ok directory clean packs
  have extracted := run.lossless tpl merged new cpio f1New merges subtree archives packed
  have holds : HoldsTree tools tpl new out := ⟨f1New, repacked, extracted⟩
  have newNodes : f1Node merged tmp = nodesAt new :=
    funext fun rel => placed_inside fun inner => (subtreeAt_eq_ok subtree inner).symm
  rw [newNodes] at nodes
  exact ⟨tpTree, ciTree, new, template, ciRead, holds, holds.f1Tree read ordinary, nodes,
    (repacked_payloads read ordinary repacked).2⟩

end

section

variable {tools : Tools} {ci template out : Bytes} {tpl : Image}

/-- `out` is the last of the images of one or more runs, each with the image before as
its template, the first with `template`. -/
inductive Rebuilds (tools : Tools) (ci template : Bytes) : Bytes → Prop where
  | first {readings : Readings} {host : FileSystem Bytes} {out : Bytes} :
      SoundRun tools readings template ci host → main tools readings template ci host = .ok out →
      Rebuilds tools ci template out
  | next {middle : Bytes} {readings : Readings} {host : FileSystem Bytes} {out : Bytes} :
      Rebuilds tools ci template middle → SoundRun tools readings middle ci host →
      main tools readings middle ci host = .ok out → Rebuilds tools ci template out

/-- However often an image is rebuilt with one CI image, its F1 is the tree that the
first run has made, and the rest is that of the first template. -/
theorem rebuilds_tree (read : rd template = .ok tpl) (ordinary : VendorBoot.Ordinary tpl)
    (rebuilds : Rebuilds tools ci template out) :
    ∃ tpTree ciTree new, f1Tree tools template = .ok tpTree ∧ f1Tree tools ci = .ok ciTree ∧
      HoldsTree tools tpl new out ∧ f1Tree tools out = .ok new ∧
      MergedNodes (nodesAt tpTree) (nodesAt ciTree) (nodesAt new) := by
  induction rebuilds with
  | first run made =>
      obtain ⟨tpTree, ciTree, new, template, ciRead, holds, outRead, nodes, _⟩ :=
        main_image run read ordinary made
      exact ⟨tpTree, ciTree, new, template, ciRead, holds, outRead, nodes⟩
  | @next middle readings host out _ run made ih =>
      obtain ⟨tpTree, ciTree, new, template, ciRead, holds, middleRead, nodes⟩ := ih
      obtain ⟨f1New, repacked, _⟩ := holds
      obtain ⟨again, readAgain, ordinaryAgain, same⟩ := repack_again read ordinary repacked
      obtain ⟨middleTree, ciTreeAgain, newer, middleAgain, ciAgain, holdsAgain, outRead, nodesAgain, _⟩ :=
        main_image run readAgain ordinaryAgain made
      rw [middleRead] at middleAgain
      cases middleAgain
      rw [ciRead] at ciAgain
      cases ciAgain
      have equal := nodesAt_injective (nodes.again nodesAgain)
      subst equal
      obtain ⟨f1Newer, repackedAgain, extracted⟩ := holdsAgain
      exact ⟨tpTree, ciTree, newer, template, ciRead, ⟨f1Newer, (same _ _).mp repackedAgain, extracted⟩,
        outRead, nodes⟩

end

/-! ### A template and a CI image with programs -/

/-- The tree below a directory that is there. -/
def treeAt (fs : FileSystem Bytes) (location : Location) : FileSystem Bytes :=
  match subtreeAt fs location with
  | .ok tree => tree
  | .error _ => .empty

theorem subtreeAt_directory {fs : FileSystem Bytes} {location : Location}
    (directory : fs.node location = some .directory) :
    subtreeAt fs location = .ok (treeAt fs location) := by
  cases read : subtreeAt fs location with
  | ok tree => rw [treeAt, read]
  | error error =>
      unfold subtreeAt at read
      split at read
      · cases read
      · rename_i leaf found
        rw [directory] at found
        exact (leaf (Option.some.inj found).symm).elim
      · rename_i absent
        rw [directory] at absent
        cases absent

section

variable {tools : Tools} {whole : FileSystem Bytes}

/-- Two trees that unpack to the parts of one file system under `/tmp`. -/
structure Parts (tools : Tools) (tplF1 ciF1 : Bytes) (whole : FileSystem Bytes) : Prop where
  template : whole.node (tpDir tmp) = some .directory
  ci : whole.node (ciDir tmp) = some .directory
  unpacksTemplate : unpacked tools tplF1 = .ok (treeAt whole (tpDir tmp))
  unpacksCi : unpacked tools ciF1 = .ok (treeAt whole (ciDir tmp))
  rest : ∀ place, ¬ tpDir tmp <:+ place → ¬ ciDir tmp <:+ place →
    whole.node place = bareHost.node place

theorem bare_rest {listing : List Location} (lists : Lists listing whole)
    (bare : ∀ location ∈ listing, ¬ tpDir tmp <:+ location → ¬ ciDir tmp <:+ location →
      whole.node location = bareHost.node location)
    (there : ∀ location ∈ [[], tmp], whole.node location ≠ none) :
    ∀ place, ¬ tpDir tmp <:+ place → ¬ ciDir tmp <:+ place →
      whole.node place = bareHost.node place := by
  intro place offTemplate offCi
  by_cases present : whole.node place = none
  · by_contra differs
    rw [present] at differs
    exact there place ((lists_ofEntries (by decide) place).mpr (Ne.symm differs)) present
  · exact bare place ((lists place).mpr present) offTemplate offCi

/-- Where both are unpacked on a bare host, that file system is what there is. -/
theorem Parts.extracted {tplF1 ciF1 : Bytes} (parts : Parts tools tplF1 ciF1 whole) :
    ∃ withCi, uz tools bareHost ciF1 "ci_dir" = .ok withCi ∧
      uz tools withCi tplF1 "tp_dir" = .ok whole := by
  have ends : Matches (Planted "ci_dir" bareHost) (unpacked tools ciF1) (uz tools bareHost ciF1 "ci_dir") :=
    uz_planted rfl (.inl (by decide))
  rw [parts.unpacksCi] at ends
  cases made : uz tools bareHost ciF1 "ci_dir" with
  | error error =>
      rw [made] at ends
      exact ends.elim
  | ok withCi =>
      rw [made] at ends
      have ci : Planted "ci_dir" bareHost (treeAt whole (ciDir tmp)) withCi := ends
      have directory : withCi.node tmp = some .directory := ci.outside _ (by decide)
      have free : withCi.node ("tp_dir" :: tmp) = none := ci.outside _ (by decide)
      have ends : Matches (Planted "tp_dir" withCi) (unpacked tools tplF1) (uz tools withCi tplF1 "tp_dir") :=
        uz_planted directory (.inl free)
      rw [parts.unpacksTemplate] at ends
      cases madeTp : uz tools withCi tplF1 "tp_dir" with
      | error error =>
          rw [madeTp] at ends
          exact ends.elim
      | ok before =>
          rw [madeTp] at ends
          have tp : Planted "tp_dir" withCi (treeAt whole (tpDir tmp)) before := ends
          refine ⟨withCi, rfl, madeTp.trans (congrArg Except.ok (FileSystem.ext (funext fun location => ?_)))⟩
          by_cases template : tpDir tmp <:+ location
          · obtain ⟨inner, rfl⟩ := template
            exact (tp.inside inner).trans (subtreeAt_eq_ok (subtreeAt_directory parts.template) inner)
          · rw [tp.outside location template]
            by_cases below : ciDir tmp <:+ location
            · obtain ⟨inner, rfl⟩ := below
              exact (ci.inside inner).trans (subtreeAt_eq_ok (subtreeAt_directory parts.ci) inner)
            · rw [ci.outside location below, parts.rest location template below]

variable {template ci tplF1 ciF1 out : Bytes} {tpl : Image} {readings : Readings}

theorem image_inputs {ciImg : Image} (read : rd template = .ok tpl) (readCi : rd ci = .ok ciImg)
    (second : secondPayload tpl = .ok tplF1) (ciSecond : secondPayload ciImg = .ok ciF1) :
    inputs template ci = .ok (tpl, tplF1, ciF1) := by
  unfold inputs
  rw [read, readCi]
  change (secondPayload tpl >>= fun _ => secondPayload ciImg >>= fun _ => _) = _
  rw [second, ciSecond]
  rfl

theorem Parts.mergeImages_eq (parts : Parts tools tplF1 ciF1 whole)
    (read : inputs template ci = .ok (tpl, tplF1, ciF1)) :
    mergeImages tools readings template ci bareHost = (do
      let after ← (mergeF1 readings.template readings.merged readings.pruned readings.bins whole
        tmp).mapError RunError.os
      pure (tpl, after)) := by
  obtain ⟨withCi, ciMade, tpMade⟩ := parts.extracted
  unfold mergeImages mergeTrees
  rw [read]
  change ((uz tools bareHost ciF1 "ci_dir" >>= fun fs => uz tools fs tplF1 "tp_dir" >>= fun fs => _) >>=
    fun fs => _) = _
  rw [ciMade]
  change ((uz tools withCi tplF1 "tp_dir" >>= fun fs => _) >>= fun fs => _) = _
  rw [tpMade]
  rfl

/-- A run on a bare host, from what its archives unpack to. -/
theorem Parts.sound (parts : Parts tools tplF1 ciF1 whole)
    (read : inputs template ci = .ok (tpl, tplF1, ciF1)) (input : MergeInput whole tmp)
    (walks : MergeWalks readings.template readings.merged readings.pruned readings.bins whole tmp)
    (lossless : ∀ after tree cpio bytes,
      mergeF1 readings.template readings.merged readings.pruned readings.bins whole tmp = .ok after →
        subtreeAt after (f1Dir tmp) = .ok tree → archiveF1 tools after = .ok cpio →
          tools.pack cpio = .ok (some bytes) → unpacked tools bytes = .ok tree) :
    SoundRun tools readings template ci bareHost where
  directory := rfl
  left := by decide
  clean := by decide
  trees := by
    intro _ _ _ _ _ readAgain uzCi uzTp
    rw [read] at readAgain
    cases readAgain
    obtain ⟨_, ciMade, tpMade⟩ := parts.extracted
    rw [ciMade] at uzCi
    cases uzCi
    rw [tpMade] at uzTp
    cases uzTp
    exact ⟨input, walks⟩
  lossless := by
    intro _ after tree cpio bytes made
    rw [parts.mergeImages_eq read] at made
    obtain ⟨_, merges, made⟩ := except_bind_eq_ok made
    cases made
    exact lossless after tree cpio bytes (mapError_eq_ok.mp merges)

theorem Parts.main_eq (parts : Parts tools tplF1 ciF1 whole)
    (read : inputs template ci = .ok (tpl, tplF1, ciF1)) (input : MergeInput whole tmp)
    (walks : MergeWalks readings.template readings.merged readings.pruned readings.bins whole tmp)
    {after : FileSystem Bytes} {cpio f1New : Bytes}
    (merged : mergeF1 readings.template readings.merged readings.pruned readings.bins whole tmp =
      .ok after)
    (archives : archiveF1 tools after = .ok cpio) (packs : tools.pack cpio = .ok (some f1New))
    (repacked : repack tpl f1New = .ok out) :
    main tools readings template ci bareHost = .ok out := by
  obtain ⟨outside, _⟩ := mergeF1_nodes input walks merged
  have directory : after.node tmp = some .directory :=
    (outside _ (by decide)).trans (parts.rest _ (by decide) (by decide))
  have clean : after.node (packedName :: tmp) = none :=
    (outside _ (by decide)).trans (parts.rest _ (by decide) (by decide))
  have packed : pk tools after = .ok f1New := by
    rw [pk_eq directory (.inl clean), archives]
    change (tools.pack cpio >>= fun packed => _) = _
    rw [packs]
    rfl
  unfold main
  rw [parts.mergeImages_eq read, merged]
  change (pk tools after >>= fun f1New => _) = _
  rw [packed]
  change (repack tpl f1New).mapError RunError.repack = _
  rw [repacked]
  rfl

end

def nestedReadings : Readings := ⟨nestedListing, nestedMerged, nestedPruned, nestedOrder⟩

def nestedNew : FileSystem Bytes :=
  match mergeF1 nestedListing nestedMerged nestedPruned nestedOrder nestedTree tmp with
  | .ok after => treeAt after (f1Dir tmp)
  | .error _ => .empty

/-- F1 archives that unpack to the trees of `nestedTree` and to what is made of them. -/
def nestedTools : Tools where
  decode data := .ok (some data)
  extract cpio := .ok (
    if cpio = [0xf1] then treeAt nestedTree (tpDir tmp)
    else if cpio = [0xc1] then treeAt nestedTree (ciDir tmp)
    else nestedNew)
  find _ := .ok []
  archive _ _ := .ok [1, 2, 3]
  pack cpio := .ok (some cpio)

theorem nestedParts : Parts nestedTools [0xf1] [0xc1] nestedTree where
  template := by decide +kernel
  ci := by decide +kernel
  unpacksTemplate := rfl
  unpacksCi := rfl
  rest := bare_rest nestedTree_lists (by decide +kernel) (by decide +kernel)

theorem nestedTree_merged : ∃ after,
    mergeF1 nestedListing nestedMerged nestedPruned nestedOrder nestedTree tmp = .ok after ∧
      after.node (f1Dir tmp) = some .directory :=
  ok_of_read (show (mergeF1 nestedListing nestedMerged nestedPruned nestedOrder nestedTree
    tmp).toOption.map (fun after => after.node (f1Dir tmp)) = some (some .directory) by decide +kernel)

theorem stockImage_with (f1 : Bytes) (short : f1.length < 4096) :
    ∃ image img, rd image = .ok img ∧ secondPayload img = .ok f1 := by
  obtain ⟨image, repacked⟩ := oneEntryLayout_repacks f1 short
  obtain ⟨⟨img, read, second⟩, _⟩ :=
    repacked_payloads oneEntryLayout.rd_encode oneEntryLayout_ordinary repacked
  exact ⟨image, img, read, second⟩

theorem main_image_nested : ∃ ci out tpTree ciTree new,
    main nestedTools nestedReadings stockImage ci bareHost = .ok out ∧
      f1Tree nestedTools out = .ok new ∧
      MergedNodes (nodesAt tpTree) (nodesAt ciTree) (nodesAt new) := by
  obtain ⟨ci, ciImg, readCi, ciSecond⟩ := stockImage_with [0xc1] (by decide)
  obtain ⟨out, repacked⟩ := oneEntryLayout_repacks [1, 2, 3] (by decide)
  obtain ⟨after, merged, directory⟩ := nestedTree_merged
  have second : secondPayload oneEntryLayout.image = .ok [0xf1] := by
    rw [secondPayload, show oneEntryLayout.image.frags = _ from stockLayout_frags _ _ _ _ _ _]
  have read := image_inputs oneEntryLayout.rd_encode readCi second ciSecond
  have archives : archiveF1 nestedTools after = .ok [1, 2, 3] := by
    rw [archiveF1, subtreeAt_directory directory]
    rfl
  have made : main nestedTools nestedReadings stockImage ci bareHost = .ok out :=
    nestedParts.main_eq read nestedTree_input nestedTree_walks merged archives rfl repacked
  have run : SoundRun nestedTools nestedReadings stockImage ci bareHost := by
    refine nestedParts.sound read nestedTree_input nestedTree_walks
      fun again tree cpio bytes mergedAgain subtree archivesAgain packs => ?_
    cases merged.symm.trans mergedAgain
    cases archives.symm.trans archivesAgain
    cases packs
    rw [subtreeAt_directory directory] at subtree
    cases subtree
    change Except.ok nestedNew = _
    rw [nestedNew, merged]
  obtain ⟨tpTree, ciTree, new, _, _, _, outTree, nodes, _⟩ :=
    main_image run oneEntryLayout.rd_encode oneEntryLayout_ordinary made
  exact ⟨ci, out, tpTree, ciTree, new, made, outTree, nodes⟩

/-! ### A template and a CI image with the same programs -/

/-- The listings that the walks of a merge without links give. -/
def mergedReading (listing : List Location) (before : FileSystem Bytes) : List Location :=
  match mergedTree before tmp with
  | .ok merged => presentIn (mergedPlaces listing tmp) merged
  | .error _ => []

def prunedReading (listing : List Location) (before : FileSystem Bytes) : List Location :=
  match mergedTree before tmp with
  | .ok merged =>
      match prunedTree (mergedReading listing before) (tpBins listing before tmp) tmp merged with
      | .ok pruned => presentIn (mergedPlaces listing tmp) pruned
      | .error _ => []
  | .error _ => []

theorem reading_walks {listing : List Location} {before : FileSystem Bytes} {order : List (List Name)}
    (lists : Lists listing before) (input : MergeInput before tmp)
    (unlinked : ∀ start names, Unlinked before start names) (once : order.Nodup)
    (same : ∀ rel, rel ∈ order ↔ rel ∈ tpBins listing before tmp) :
    MergeWalks listing (mergedReading listing before) (prunedReading listing before) order before
      tmp := by
  have links (merged : FileSystem Bytes) (made : mergedTree before tmp = .ok merged) (rel : List Name)
      (under : UnderBin rel) : LinkOff merged (f1Dir tmp) rel := by
    intro target found
    have tree := mergedTree_ok input made
    have notCore : ¬ InCore rel := by
      intro core
      change f1Node merged tmp rel = _ at found
      rw [tree.core rel core] at found
      cases found
    have ci := tree.sub binNames (by decide) rel under.1 notCore
    exact absurd (ci.symm.trans found) (unlinked _ rel rel (List.prefix_refl _) target)
  have mergedLists (merged : FileSystem Bytes) (made : mergedTree before tmp = .ok merged) :
      Lists (mergedReading listing before) merged := by
    rw [mergedReading, made]
    exact lists_presentIn fun _ => merged_listed lists (mergedTree_ok input made)
  refine ⟨lists, mergedLists, fun merged pruned made prune => ?_, once, same, links⟩
  have smaller := (prunedTree_ok (mergedLists merged made) (links merged made) prune).smaller
  rw [prunedReading, made]
  simp only [prune]
  refine lists_presentIn fun location present => ?_
  obtain ⟨node, found⟩ := Option.ne_none_iff_exists'.mp present
  refine merged_listed lists (mergedTree_ok input made) ?_
  rw [smaller location node found]
  simp

def twinEntries : List (Location × Node Bytes) :=
  (tmp, .directory) :: [tpDir tmp, ciDir tmp].flatMap fun dir =>
    [(dir, .directory), (place dir ["system"], .directory), (place dir binNames, .directory),
      (place dir (binNames ++ ["recovery"]), .file [1])]

def twinTree : FileSystem Bytes := .ofEntries twinEntries (by decide +kernel)

def twinListing : List Location := [] :: twinEntries.map Prod.fst

def twinReadings : Readings where
  template := twinListing
  merged := mergedReading twinListing twinTree
  pruned := prunedReading twinListing twinTree
  bins := [binNames ++ ["recovery"]]

def twinTools : Tools where
  decode data := .ok (some data)
  extract _ := .ok (treeAt twinTree (tpDir tmp))
  find _ := .ok []
  archive _ _ := .ok [1, 2, 3]
  pack cpio := .ok (some cpio)

theorem twinTree_lists : Lists twinListing twinTree := lists_ofEntries _

theorem twinTree_unlinked (start : Location) (names : List Name) : Unlinked twinTree start names :=
  unlinked_ofEntries _ (by decide +kernel) start names

theorem twinTree_same (inner : List Name) :
    twinTree.node (inner ++ tpDir tmp) = twinTree.node (inner ++ ciDir tmp) := by
  have each : ∀ location ∈ twinListing,
      (∀ inner ∈ within (tpDir tmp) location,
        twinTree.node location = twinTree.node (inner ++ ciDir tmp)) ∧
      ∀ inner ∈ within (ciDir tmp) location,
        twinTree.node location = twinTree.node (inner ++ tpDir tmp) := by
    decide +kernel
  by_cases template : twinTree.node (inner ++ tpDir tmp) = none
  · by_cases ci : twinTree.node (inner ++ ciDir tmp) = none
    · rw [template, ci]
    · have listed := (twinTree_lists _).mpr ci
      exact ((each _ listed).2 inner (within_append inner _)).symm
  · have listed := (twinTree_lists _).mpr template
    exact (each _ listed).1 inner (within_append inner _)

theorem twinTree_input : MergeInput twinTree tmp where
  directory := by decide +kernel
  template := by decide +kernel
  noLink := twinTree_unlinked _ [] [] List.nil_prefix
  templateSubs := fun _ _ => twinTree_unlinked _ _
  ciSubs := fun _ _ => twinTree_unlinked _ _
  core := by
    intro f member
    left
    revert member
    revert f
    decide +kernel
  templateLinks := fun rel target _ found =>
    absurd found (twinTree_unlinked _ rel rel (List.prefix_refl _) target)
  noClash := by
    intro rel node _ found notDirectory directory
    have same := (twinTree_same rel.reverse).symm.trans found
    rw [ciNode, place, same] at directory
    exact notDirectory (Option.some.inj directory)

theorem twinTree_walks : MergeWalks twinReadings.template twinReadings.merged twinReadings.pruned
    twinReadings.bins twinTree tmp :=
  reading_walks twinTree_lists twinTree_input twinTree_unlinked (by decide) fun rel => by
    have same : tpBins twinListing twinTree tmp = [binNames ++ ["recovery"]] := by decide +kernel
    rw [same]
    rfl

theorem twinTree_directories :
    twinTree.node (tpDir tmp) = some .directory ∧ twinTree.node (ciDir tmp) = some .directory := by
  decide +kernel

theorem twinTree_parts (tplF1 ciF1 : Bytes) : Parts twinTools tplF1 ciF1 twinTree where
  template := twinTree_directories.1
  ci := twinTree_directories.2
  unpacksTemplate := rfl
  unpacksCi := by
    refine congrArg Except.ok (FileSystem.ext (funext fun inner => ?_))
    rw [subtreeAt_eq_ok (subtreeAt_directory twinTree_directories.1),
      subtreeAt_eq_ok (subtreeAt_directory twinTree_directories.2), twinTree_same]
  rest := bare_rest twinTree_lists (by decide +kernel) (by decide +kernel)

theorem twinTree_merged : ∃ after,
    mergeF1 twinReadings.template twinReadings.merged twinReadings.pruned twinReadings.bins twinTree
      tmp = .ok after ∧ after.node (f1Dir tmp) = some .directory :=
  ok_of_read (show (mergeF1 twinReadings.template twinReadings.merged twinReadings.pruned
    twinReadings.bins twinTree tmp).toOption.map (fun after => after.node (f1Dir tmp)) =
      some (some .directory) by decide +kernel)

/-- What the merge of the two makes is what each of them is. -/
theorem twinTree_new {after tree : FileSystem Bytes}
    (merged : mergeF1 twinReadings.template twinReadings.merged twinReadings.pruned
      twinReadings.bins twinTree tmp = .ok after)
    (subtree : subtreeAt after (f1Dir tmp) = .ok tree) : treeAt twinTree (tpDir tmp) = tree := by
  have part (inner : List Name) :
      (treeAt twinTree (tpDir tmp)).node inner = twinTree.node (inner ++ tpDir tmp) :=
    subtreeAt_eq_ok (subtreeAt_directory twinTree_directories.1) inner
  obtain ⟨_, nodes⟩ := mergeF1_nodes twinTree_input twinTree_walks merged
  have template : tpNode twinTree tmp = nodesAt (treeAt twinTree (tpDir tmp)) :=
    funext fun rel => placed_inside fun inner => (part inner).symm
  have ci : ciNode twinTree tmp = nodesAt (treeAt twinTree (tpDir tmp)) :=
    funext fun rel => placed_inside fun inner => by
      rw [part, twinTree_same]
      rfl
  have new : f1Node after tmp = nodesAt tree :=
    funext fun rel => placed_inside fun inner => (subtreeAt_eq_ok subtree inner).symm
  rw [template, ci, new] at nodes
  have root : ¬ IsLeaf (nodesAt (treeAt twinTree (tpDir tmp)) binNames) := by
    intro leaf
    refine leaf.2 ?_
    rw [nodesAt, place, part]
    decide +kernel
  exact nodesAt_injective ((MergedNodes.same _ root).unique nodes)

/-- A run with any two images. -/
theorem twinRun {template ci tplF1 ciF1 out : Bytes} {tpl : Image}
    (read : inputs template ci = .ok (tpl, tplF1, ciF1)) (repacked : repack tpl [1, 2, 3] = .ok out) :
    SoundRun twinTools twinReadings template ci bareHost ∧
      main twinTools twinReadings template ci bareHost = .ok out := by
  obtain ⟨after, merged, directory⟩ := twinTree_merged
  have archives : archiveF1 twinTools after = .ok [1, 2, 3] := by
    rw [archiveF1, subtreeAt_directory directory]
    rfl
  exact ⟨(twinTree_parts tplF1 ciF1).sound read twinTree_input twinTree_walks
      fun _ _ _ _ mergedAgain subtree _ _ => congrArg Except.ok (twinTree_new mergedAgain subtree),
    (twinTree_parts tplF1 ciF1).main_eq read twinTree_input twinTree_walks merged archives rfl repacked⟩

theorem rebuilds_tree_twin : ∃ middle out tpTree ciTree new,
    main twinTools twinReadings stockImage stockImage bareHost = .ok middle ∧
      main twinTools twinReadings middle stockImage bareHost = .ok out ∧
      f1Tree twinTools out = .ok new ∧
      MergedNodes (nodesAt tpTree) (nodesAt ciTree) (nodesAt new) := by
  obtain ⟨middle, repacked⟩ := oneEntryLayout_repacks [1, 2, 3] (by decide)
  obtain ⟨run, made⟩ := twinRun stockImage_inputs repacked
  obtain ⟨⟨again, readAgain, second⟩, _⟩ :=
    repacked_payloads oneEntryLayout.rd_encode oneEntryLayout_ordinary repacked
  obtain ⟨same, readSame, _, images⟩ :=
    repack_again oneEntryLayout.rd_encode oneEntryLayout_ordinary repacked
  cases readAgain.symm.trans readSame
  have stockSecond : secondPayload oneEntryLayout.image = .ok [0xf1] := by
    rw [secondPayload, show oneEntryLayout.image.frags = _ from stockLayout_frags _ _ _ _ _ _]
  obtain ⟨nextRun, nextMade⟩ :=
    twinRun (image_inputs readAgain oneEntryLayout.rd_encode second stockSecond)
      ((images _ _).mpr repacked)
  obtain ⟨tpTree, ciTree, new, _, _, _, outTree, nodes⟩ :=
    rebuilds_tree oneEntryLayout.rd_encode oneEntryLayout_ordinary
      (.next (.first run made) nextRun nextMade)
  exact ⟨middle, middle, tpTree, ciTree, new, made, nextMade, outTree, nodes⟩

end DashTwrp.RepackF1
