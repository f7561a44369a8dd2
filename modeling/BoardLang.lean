import BoardLang.Main
import BoardLang.Netlist.Module
import BoardLang.Proofs.Acceptance
import BoardLang.Proofs.Tiling
import BoardLang.Proofs.TruePositions
import BoardLang.Proofs.Verdicts
import BoardLang.Proofs.Running
import BoardLang.Proofs.Lookahead
import BoardLang.Proofs.FirstFault
import BoardLang.Proofs.Spacing
import BoardLang.Proofs.Transparency
import BoardLang.Proofs.Courses
import BoardLang.Proofs.StatementEnds
import BoardLang.Proofs.Joining
import BoardLang.Proofs.Edits
import BoardLang.Proofs.Splitting
import BoardLang.Proofs.Progress
import BoardLang.Proofs.SharedStream
import BoardLang.Proofs.KeptComments
import BoardLang.Proofs.Wiring
import BoardLang.Proofs.CommandLine
import BoardLang.Proofs.Trees
import BoardLang.Proofs.CommentTexts
import BoardLang.Proofs.Integers
import BoardLang.Proofs.Diagnostics
import BoardLang.Proofs.Bounds
import BoardLang.Proofs.Connecting
import BoardLang.Proofs.Handles
import BoardLang.Proofs.Quotations
import BoardLang.Proofs.Listings
