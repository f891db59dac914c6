import XmlTree.Arena
import XmlTree.Arena.BaseUri
import XmlTree.Arena.Climb
import XmlTree.Arena.Element
import XmlTree.Arena.Lineage
import XmlTree.Arena.Order
import XmlTree.Arena.Preorder
import XmlTree.Arena.Scope
import XmlTree.Arena.Siblings
import XmlTree.Arena.Stack
import XmlTree.Edit
import XmlTree.Edit.Children
import XmlTree.Edit.Indexed
import XmlTree.Edit.Ownership
import XmlTree.Edit.Release
import XmlTree.Node
import XmlTree.OrderedMap
import XmlTree.QName
import XmlTree.Session
import XmlTree.Snapshot.Decode
import XmlTree.Snapshot.Encode
import XmlTree.Snapshot.Value
import XmlTree.Text.Cut
import XmlTree.TreeError
import XmlTree.Url.Authority
import XmlTree.Url.Basic
import XmlTree.Url.Host
import XmlTree.Url.Path
import XmlTree.Url.Percent
import XmlTree.Url.Resolve
import XmlTree.Url.Resolver
import XmlTree.Url.Scheme
import XmlTree.Proofs.AbsoluteBase
import XmlTree.Proofs.Addition
import XmlTree.Proofs.Answer
import XmlTree.Proofs.BaseUri
import XmlTree.Proofs.Changes
import XmlTree.Proofs.Creation
import XmlTree.Proofs.Depth
import XmlTree.Proofs.Edit
import XmlTree.Proofs.Failure.Commands
import XmlTree.Proofs.Failure.Fair
import XmlTree.Proofs.Failure.Questions
import XmlTree.Proofs.Frame.Moves
import XmlTree.Proofs.Frame.Rehung
import XmlTree.Proofs.Frame.Renamed
import XmlTree.Proofs.Frame.Shifts
import XmlTree.Proofs.History
import XmlTree.Proofs.Identity.Emptied
import XmlTree.Proofs.Identity.Lossless
import XmlTree.Proofs.Identity.Run
import XmlTree.Proofs.Independence.Alike
import XmlTree.Proofs.Independence.Commute
import XmlTree.Proofs.Independence.Confined
import XmlTree.Proofs.Indexed
import XmlTree.Proofs.Insertion
import XmlTree.Proofs.Lineage
import XmlTree.Proofs.Linking
import XmlTree.Proofs.MapSteps
import XmlTree.Proofs.Names.Bound
import XmlTree.Proofs.Names.Naming
import XmlTree.Proofs.Names.Spelling
import XmlTree.Proofs.Order.Climb
import XmlTree.Proofs.Order.Full
import XmlTree.Proofs.Order.Keys
import XmlTree.Proofs.Order.Laws
import XmlTree.Proofs.Order.Ranks
import XmlTree.Proofs.Order.Siblings
import XmlTree.Proofs.Order.Sort
import XmlTree.Proofs.Order.Ways
import XmlTree.Proofs.OrderedMap
import XmlTree.Proofs.Ownership.Children
import XmlTree.Proofs.Ownership.Consistent
import XmlTree.Proofs.Ownership.Create
import XmlTree.Proofs.Ownership.Place
import XmlTree.Proofs.Ownership.Relabel
import XmlTree.Proofs.Ownership.Release
import XmlTree.Proofs.Ownership.Relink
import XmlTree.Proofs.Ownership.Shelves
import XmlTree.Proofs.QName
import XmlTree.Proofs.Reachable
import XmlTree.Proofs.Replacement
import XmlTree.Proofs.Scope.Bindings
import XmlTree.Proofs.Scope.Declaration
import XmlTree.Proofs.Siblings
import XmlTree.Proofs.Snapshot
import XmlTree.Proofs.Transfer
import XmlTree.Proofs.Traversal
import XmlTree.Proofs.Undo
import XmlTree.Proofs.Url.Scheme
import XmlTree.Proofs.Views
