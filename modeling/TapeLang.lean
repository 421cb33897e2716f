import TapeLang.Host.Buffer
import TapeLang.Host.LineScript
import TapeLang.Host.SharedBuffers
import TapeLang.Main
import TapeLang.Proofs.Brackets.Balanced
import TapeLang.Proofs.Brackets.Check
import TapeLang.Proofs.Brackets.Search
import TapeLang.Proofs.Machine.Visit
import TapeLang.Proofs.Machine.Walk
import TapeLang.Proofs.Tree.Block
import TapeLang.Proofs.Tree.Refinement
import TapeLang.Proofs.Comments
import TapeLang.Proofs.Resumption
import TapeLang.Proofs.Brackets.Faults
import TapeLang.Proofs.Machine.Operations
import TapeLang.Proofs.Machine.Calls
import TapeLang.Proofs.Machine.Twins
import TapeLang.Proofs.Machine.Causality
import TapeLang.Proofs.Machine.History
import TapeLang.Proofs.FinalNewline
import TapeLang.Proofs.Jobs
import TapeLang.Proofs.Line.Numerals
import TapeLang.Proofs.Line.Values
import TapeLang.Proofs.Shorthand
import TapeLang.Proofs.Console.Lines
import TapeLang.Proofs.Console.Runs
import TapeLang.Proofs.CommandLine.Commands
import TapeLang.Proofs.CommandLine.Expansion
import TapeLang.Proofs.CommandLine.StandardInput
import TapeLang.Proofs.CommandLine.Dialogue
import TapeLang.Proofs.CommandLine.Conversation
import TapeLang.Proofs.Machine.Setbacks
import TapeLang.Proofs.Brackets.Reports
import TapeLang.Proofs.Brackets.Embedding
import TapeLang.Proofs.Composition
import TapeLang.Proofs.StraightLine
import TapeLang.Proofs.Excerpts
import TapeLang.Proofs.Positions
import TapeLang.Proofs.Machine.Radius
import TapeLang.Proofs.Brackets.Sequence
import TapeLang.Proofs.Machine.Extent
import TapeLang.Proofs.Replay
import TapeLang.Proofs.Sharing
