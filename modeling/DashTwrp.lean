import DashTwrp.Python.Slices
import DashTwrp.Python.Integers
import DashTwrp.Python.Text
import DashTwrp.Python.Lines
import DashTwrp.Python.Struct
import DashTwrp.Newc.Parse
import DashTwrp.Newc.Extents
import DashTwrp.Newc.Patch
import DashTwrp.Newc.PropertyLines
import DashTwrp.Newc.Encoding
import DashTwrp.Newc.Preservation
import DashTwrp.VendorBoot.Reader
import DashTwrp.VendorBoot.Layout
import DashTwrp.VendorBoot.Repack
import DashTwrp.VendorBoot.Stages
import DashTwrp.VendorBoot.Placement
import DashTwrp.VendorBoot.RepackImage
import DashTwrp.VendorBoot.RepackDtb
import DashTwrp.VendorBoot.RepackTable
import DashTwrp.VendorBoot.RepackSections
import DashTwrp.Python.Replace
import DashTwrp.InitRc.Syntax
import DashTwrp.InitRc.Setenv
import DashTwrp.Unix.FileSystem
import DashTwrp.Unix.Programs
import DashTwrp.Unix.Disk
import DashTwrp.Python.Paths
import DashTwrp.Python.Json
import DashTwrp.Python.Process
import DashTwrp.PatchTool.Main
import DashTwrp.PatchTool.Files
import DashTwrp.PatchTool.Leftovers
import DashTwrp.Newc.Progress
import DashTwrp.Newc.Tiling
import DashTwrp.Newc.Acceptance
import DashTwrp.Newc.Language
import DashTwrp.Newc.Editing
import DashTwrp.Newc.LineOffsets
import DashTwrp.Newc.Checksums
import DashTwrp.VendorBoot.Truncation
import DashTwrp.VendorBoot.Chain
import DashTwrp.RepackF1.Image
import DashTwrp.Python.Words
import DashTwrp.Python.Shlex
import DashTwrp.VerifyTree.Verdict
import DashTwrp.VerifyTree.Fstab
import DashTwrp.VerifyTree.FstabTexts
import DashTwrp.VerifyTree.FstabGate
import DashTwrp.Unix.Trees
import DashTwrp.Python.PathTexts
import DashTwrp.Unix.Unlinked
import DashTwrp.VerifyTree.Prebuilts
import DashTwrp.VerifyTree.PrebuiltLines
import DashTwrp.InitRc.Layout
import DashTwrp.VerifyTree.TouchInit
import DashTwrp.VerifyFragments.F0
import DashTwrp.Python.Shutil
import DashTwrp.InitRc.Insertion
import DashTwrp.PrepareFragments.F0
import DashTwrp.PrepareFragments.F0Steps
import DashTwrp.PrepareFragments.F0Result
import DashTwrp.PrepareFragments.F1
import DashTwrp.PrepareFragments.F1Result
import DashTwrp.Unix.Puts
import DashTwrp.Python.Removals
import DashTwrp.Python.Copies
import DashTwrp.RepackF1.Merge
import DashTwrp.RepackF1.Passes
import DashTwrp.RepackF1.Walks
import DashTwrp.RepackF1.Result
import DashTwrp.RepackF1.Fixpoint
import DashTwrp.Python.GuardedRemovals
import DashTwrp.RepackF1.RemovalSteps
import DashTwrp.Python.Outputs
import DashTwrp.VendorBoot.Output
import DashTwrp.Unix.Hidden
import DashTwrp.Python.Paired
import DashTwrp.RepackF1.Run
import DashTwrp.RepackF1.PairedMerge
import DashTwrp.RepackF1.History
import DashTwrp.Python.Extraction
import DashTwrp.PrepareFragments.F0Made
import DashTwrp.PrepareFragments.Manifest
import DashTwrp.PrepareFragments.Frame
import DashTwrp.VerifyFragments.Main
import DashTwrp.PrepareFragments.Accepted
import DashTwrp.PrepareFragments.PairedSteps
import DashTwrp.PrepareFragments.Again
import DashTwrp.ExtractFiles.Result
import DashTwrp.VerifyTree.FstabRules
import DashTwrp.VerifyTree.Main
import DashTwrp.ExtractFiles.Verified
