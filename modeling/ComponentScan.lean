import ComponentScan.Main
import ComponentScan.Proofs.Flow.Memo
import ComponentScan.Proofs.Flow.Graph
import ComponentScan.Proofs.Flow.Reachability
import ComponentScan.Proofs.Component.Evidence
import ComponentScan.Proofs.Component.SpecEntries
import ComponentScan.Proofs.CommandLine.Listing
import ComponentScan.Proofs.Component.NameSearch
import ComponentScan.Proofs.Termination
import ComponentScan.Proofs.Tree.Owner
import ComponentScan.Proofs.Binding.Place
import ComponentScan.Proofs.Resolution
import ComponentScan.Proofs.Extension.Basic
import ComponentScan.Proofs.Extension.Resolution
import ComponentScan.Proofs.Extension.Flow
import ComponentScan.Proofs.Extension.Component
import ComponentScan.Proofs.Value.Denotation
import ComponentScan.Proofs.Origin
import ComponentScan.Proofs.Value.Settling
import ComponentScan.Proofs.Binding.Scoping
import ComponentScan.Proofs.Tree.Scope
import ComponentScan.Proofs.Flow.ReturnScan
import ComponentScan.Proofs.Binding.Hoisting
import ComponentScan.Proofs.Component.EntryFunction
import ComponentScan.Proofs.Value.LaterAssignment
import ComponentScan.Proofs.Binding.Destructuring
import ComponentScan.Proofs.Flow.Rescans
import ComponentScan.Proofs.Flow.Remembered
import ComponentScan.Proofs.Tree.Layout
import ComponentScan.Proofs.Component.SourceOrder
import ComponentScan.Proofs.Tree.Indexing
