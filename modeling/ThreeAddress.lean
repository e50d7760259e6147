import ThreeAddress.Command.Run
import ThreeAddress.Main
import ThreeAddress.Proofs.Completeness
import ThreeAddress.Proofs.Conservation
import ThreeAddress.Proofs.Scoping
import ThreeAddress.Proofs.Simulation
import ThreeAddress.Proofs.Tiling
import ThreeAddress.Proofs.Temporaries
import ThreeAddress.Proofs.Truncation
import ThreeAddress.Proofs.Acceptance
import ThreeAddress.Proofs.Initialization
import ThreeAddress.Proofs.Height
import ThreeAddress.Proofs.Lookup
import ThreeAddress.Proofs.Declarations
import ThreeAddress.Proofs.Provenance
import ThreeAddress.Proofs.Layout
import ThreeAddress.Proofs.Reuse
import ThreeAddress.Proofs.Enclosure
import ThreeAddress.Proofs.ScopeTree
import ThreeAddress.Proofs.Decoding
import ThreeAddress.Proofs.LongestMatch
import ThreeAddress.Proofs.Reprinting
import ThreeAddress.Proofs.Gates
import ThreeAddress.Proofs.FileTree
import ThreeAddress.Proofs.SourceFiles
import ThreeAddress.Proofs.DirectoryRun
import ThreeAddress.Proofs.LineEnds
import ThreeAddress.Proofs.Usage
import ThreeAddress.Proofs.UsageMarks
import ThreeAddress.Proofs.Relabeling
import ThreeAddress.Proofs.SingleUse
import ThreeAddress.Proofs.Extension
import ThreeAddress.Proofs.Renaming
import ThreeAddress.Proofs.Operands
import ThreeAddress.Proofs.Mismatches
import ThreeAddress.Proofs.LiteralTypes
import ThreeAddress.Proofs.Listing
import ThreeAddress.Proofs.Termination
import ThreeAddress.Proofs.ByteOrder
import ThreeAddress.Proofs.SourceListing
