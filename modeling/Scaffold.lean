import Scaffold.Main
import Scaffold.Session
import Scaffold.Config.Basic
import Scaffold.Graph.Value
import Scaffold.Proofs.Generation.Clash
import Scaffold.Proofs.Generation.Gated
import Scaffold.Proofs.Generation.Interference
import Scaffold.Proofs.Generation.Order
import Scaffold.Proofs.Generation.Undone
import Scaffold.Proofs.Graph.Counted
import Scaffold.Proofs.Graph.Filtered
import Scaffold.Proofs.Region.FixedPoint
import Scaffold.Proofs.Region.LastSaved
import Scaffold.Proofs.Region.Verbatim
import Scaffold.Proofs.TypeScript.Accounted
import Scaffold.Proofs.TypeScript.ImportPath
import Scaffold.Proofs.TypeScript.Namesakes
import Scaffold.Proofs.Settings.History
import Scaffold.Proofs.Config.Given
import Scaffold.Proofs.Config.Saved
import Scaffold.Proofs.Registry.Aliases
import Scaffold.Proofs.Registry.Refused
import Scaffold.Proofs.Command.Untouched
import Scaffold.Proofs.Metadata.Collected
import Scaffold.Proofs.Metadata.OwnName
import Scaffold.Proofs.CSharp.Members
import Scaffold.Proofs.Generation.Balanced
import Scaffold.Proofs.Generation.GeneratedImports
import Scaffold.Proofs.Metadata.Layers
import Scaffold.Proofs.Loading.Contained
import Scaffold.Proofs.Metadata.Refused
import Scaffold.Proofs.Region.OwnSidecar
import Scaffold.Proofs.Region.Unreadable
import Scaffold.Proofs.Generation.Warnings
import Scaffold.Proofs.Config.Namespaces
import Scaffold.Proofs.Naming.Separators
