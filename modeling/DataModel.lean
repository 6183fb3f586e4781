import DataModel.Bitfield
import DataModel.CommandLine
import DataModel.Directory
import DataModel.Document
import DataModel.Edit
import DataModel.Edit.Entity
import DataModel.Edit.Field
import DataModel.Edit.Refusal
import DataModel.Entity
import DataModel.Enumeration
import DataModel.Error
import DataModel.Error.Flaw
import DataModel.Field
import DataModel.Field.Default
import DataModel.Field.Type
import DataModel.Grant
import DataModel.Grant.Operation
import DataModel.Handle
import DataModel.Ident
import DataModel.Ident.Reserved
import DataModel.Inventory
import DataModel.Label
import DataModel.Linked
import DataModel.Linking.Fields
import DataModel.Linking.Grants
import DataModel.Linking.Heights
import DataModel.Linking.Notices
import DataModel.Linking.Numbering
import DataModel.Linking.Options
import DataModel.Linking.Paths
import DataModel.Linking.Placement
import DataModel.Linking.Recheck
import DataModel.Linking.Specs
import DataModel.Main
import DataModel.MessagePack.Choice
import DataModel.MessagePack.Format
import DataModel.MessagePack.Head
import DataModel.MessagePack.Record
import DataModel.MessagePack.Word
import DataModel.Path
import DataModel.Real64
import DataModel.Real64.Shortest
import DataModel.Real64.Text
import DataModel.Report
import DataModel.Proofs.Linking.Heights
import DataModel.Proofs.Linking.Independence
import DataModel.Proofs.Outcome
import DataModel.Proofs.Unlinked
import DataModel.RoleTree
import DataModel.Session
import DataModel.Snapshot
import DataModel.Snapshot.Records
import DataModel.Spec.Mutation
import DataModel.Spec.Search
import DataModel.Spec.Terms
import DataModel.Spec.Unique
import DataModel.Text.CodeRanges
import DataModel.Text.Combining
import DataModel.Text.Invisible
import DataModel.Text.Quoted
import DataModel.Vocabulary
import DataModel.Proofs.Linking.Preservation
import DataModel.Proofs.Linking.Bindings
import DataModel.Proofs.MessagePack.Formats
import DataModel.Proofs.MessagePack.Records
import DataModel.Proofs.Snapshot.Records
import DataModel.Proofs.Snapshot.RoundTrip
import DataModel.Proofs.Linking.Filling
import DataModel.Proofs.Linking.FallingHeights
import DataModel.Proofs.Linking.HeightOrder
import DataModel.Proofs.Linking.Descent
import DataModel.Proofs.Linking.Walks
import DataModel.Proofs.Linking.BoundPaths
import DataModel.Proofs.Linking.DeclaredNames
import DataModel.Proofs.Linking.Relinking
import DataModel.Proofs.Coupling
import DataModel.Proofs.Snapshot.Acceptance
import DataModel.Proofs.Editing
import DataModel.Proofs.Identifiers
import DataModel.Proofs.Naming.Headings
import DataModel.Proofs.Naming.Parts
import DataModel.Proofs.Naming.Listings
import DataModel.Proofs.Naming.Scopes
import DataModel.Proofs.Naming.History
import DataModel.Proofs.Snapshot.Identifiers
import DataModel.Proofs.Linking.MutationKinds
import DataModel.Proofs.Linking.Trust
import DataModel.Proofs.Linking.KeptDeclarations
import DataModel.Proofs.Linking.RoleNames
import DataModel.Proofs.Linking.Authorisation
import DataModel.Proofs.Linking.GrantEntries
import DataModel.Proofs.Safety.Watched
import DataModel.Proofs.Safety.HeightWalk
import DataModel.Proofs.Safety.Numbers
import DataModel.Proofs.Safety.Roles
import DataModel.Proofs.Safety.Loading
import DataModel.Proofs.Linking.Renaming
import DataModel.Proofs.Linking.EntityOrder
import DataModel.Proofs.Roles.Forest
import DataModel.Proofs.Roles.Growth
import DataModel.Proofs.Roles.Admission
import DataModel.Proofs.MessagePack.Framing
import DataModel.Proofs.Snapshot.Truncation
import DataModel.Proofs.Spelling.Folding
import DataModel.Proofs.Spelling.Linking
import DataModel.Proofs.Spelling.Mirroring
import DataModel.Proofs.Extension.Documents
import DataModel.Proofs.Extension.Bindings
import DataModel.Proofs.Extension.Linking
import DataModel.Proofs.Granting
import DataModel.Proofs.Sessions
import DataModel.Proofs.InPlace.Changes
import DataModel.Proofs.InPlace.Declarations
import DataModel.Proofs.Snapshot.Labels
import DataModel.Proofs.Roles.SingleForest
import DataModel.Proofs.Handles.Retained
import DataModel.Proofs.Handles.Stability
import DataModel.Proofs.Handles.Reordering
import DataModel.Proofs.Inventory
import DataModel.Proofs.Linking.EnumerationValues
import DataModel.Proofs.Linking.BitSets
import DataModel.Proofs.Unique.Keys
import DataModel.Proofs.Unique.Duplicates
import DataModel.Proofs.Unique.BoundFields
import DataModel.Proofs.Setters
import DataModel.Proofs.Roles.Outline
import DataModel.Proofs.Reports
import DataModel.Proofs.Spelling.Comparison
