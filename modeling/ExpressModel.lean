import ExpressModel.Config.Loading
import ExpressModel.Config.Printing
import ExpressModel.Config.Sources
import ExpressModel.Declaration.SchemaText
import ExpressModel.Dictionary.Build
import ExpressModel.Links.Cycles
import ExpressModel.Proofs.Resolve.Query
import ExpressModel.Proofs.Links.Acyclic
import ExpressModel.Registry.Inspect
import ExpressModel.Resolve.Selection
import ExpressModel.Proofs.Resolve.Acyclic
import ExpressModel.Proofs.Registry.Operation
import ExpressModel.Proofs.Registry.Sequence
import ExpressModel.Proofs.Registry.Buffer
import ExpressModel.Proofs.Registry.AtEnd
import ExpressModel.Proofs.Building.Effect
import ExpressModel.Proofs.Building.Operation
import ExpressModel.Proofs.Building.Listing
import ExpressModel.Proofs.Declaration.SchemaText
import ExpressModel.Proofs.Declaration.Frame
import ExpressModel.Proofs.Links.Components
import ExpressModel.Proofs.Resolve.Admission
import ExpressModel.Proofs.Resolve.Tags
import ExpressModel.Proofs.Building.Arena
import ExpressModel.Proofs.Building.Refusal
import ExpressModel.Proofs.Resolve.Growth
import ExpressModel.Proofs.Declaration.Contents
import ExpressModel.Proofs.Resolve.Dangling
import ExpressModel.Proofs.Rule.Sharing
import ExpressModel.Proofs.Registry.Layout
import ExpressModel.Proofs.Building.Layout
import ExpressModel.Proofs.Resolve.Unknown
import ExpressModel.Proofs.Declaration.Naming
import ExpressModel.Proofs.Registry.Identity
import ExpressModel.Proofs.Resolve.Ancestry
import ExpressModel.Proofs.Config.Documented
import ExpressModel.Proofs.Config.Overlay
import ExpressModel.Proofs.Config.Plain
import ExpressModel.Proofs.Resolve.Nesting
import ExpressModel.Proofs.Config.Layers
import ExpressModel.Proofs.Config.Loading
import ExpressModel.Proofs.Resolve.Referents
import ExpressModel.Proofs.Resolve.Composition
import ExpressModel.Proofs.Resolve.NestedNames
import ExpressModel.Proofs.Resolve.TagSets
import ExpressModel.Proofs.Resolve.Aliases
import ExpressModel.Proofs.Resolve.Segments
import ExpressModel.Proofs.Descriptor.AltNames
import ExpressModel.Proofs.Building.Renames
import ExpressModel.Proofs.Links.Edges
import ExpressModel.Proofs.Links.Snapshot
import ExpressModel.Proofs.Declaration.Literals
import ExpressModel.Proofs.Declaration.Parentheses
import ExpressModel.Proofs.Declaration.Attributes
import ExpressModel.Proofs.Declaration.Reflow
import ExpressModel.Proofs.Registry.Capacity
import ExpressModel.Proofs.Registry.Words
import ExpressModel.Proofs.Interface.Copies
import ExpressModel.Proofs.Toml.Scalar
import ExpressModel.Proofs.Toml.Lines
import ExpressModel.Proofs.Toml.Tables
import ExpressModel.Proofs.Config.RoundTrip
