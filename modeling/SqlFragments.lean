import SqlFragments.Command.Folder
import SqlFragments.Main
import SqlFragments.Proofs.Frames
import SqlFragments.Proofs.Resolution.Depth
import SqlFragments.Proofs.Resolution.Lexical
import SqlFragments.Proofs.Resolution.Snapshot
import SqlFragments.Proofs.Resolution.Traceless
import SqlFragments.Proofs.Resolution.Visits
import SqlFragments.Proofs.Resolution.Cycles
import SqlFragments.Proofs.Resolution.Ending
import SqlFragments.Proofs.Resolution.Following
import SqlFragments.Proofs.Resolution.Detection
import SqlFragments.Proofs.Markup.Events
import SqlFragments.Proofs.Markup.Delivery
import SqlFragments.Proofs.Mapper.Reading
import SqlFragments.Proofs.Mapper.Declaration
import SqlFragments.Proofs.Mapper.Writing
import SqlFragments.Proofs.Mapper.ReadingBack
import SqlFragments.Proofs.Mapper.Registration
import SqlFragments.Proofs.Resolution.Running
import SqlFragments.Proofs.Resolution.Unscoped
import SqlFragments.Proofs.Resolution.Consistency
import SqlFragments.Proofs.Resolution.Inlining
import SqlFragments.Proofs.Placeholder.Naming
import SqlFragments.Proofs.Mapper.Outline
import SqlFragments.Proofs.Command.Union
import SqlFragments.Proofs.Command.Agreement
import SqlFragments.Proofs.Resolution.Namespace
import SqlFragments.Proofs.Command.Order
import SqlFragments.Proofs.Resolution.Growth
import SqlFragments.Proofs.Command.Growth
import SqlFragments.Proofs.Resolution.Passive
import SqlFragments.Proofs.Placeholder.Reading
import SqlFragments.Proofs.Resolution.Truth
import SqlFragments.Proofs.Resolution.Chains
import SqlFragments.Proofs.Node.Properties
import SqlFragments.Proofs.Resolution.Listing
import SqlFragments.Proofs.Placeholder.Faults
import SqlFragments.Proofs.Resolution.Cutting
import SqlFragments.Proofs.Resolution.Substitution
import SqlFragments.Proofs.Node.References
import SqlFragments.Proofs.Mapper.Shape
import SqlFragments.Proofs.Mapper.Nesting
import SqlFragments.Proofs.Node.FirstCome
import SqlFragments.Proofs.Text.Words
import SqlFragments.Proofs.Placeholder.Recovery
import SqlFragments.Proofs.Mapper.Nesting
