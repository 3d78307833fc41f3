import Wiring.Action
import Wiring.ArgPath
import Wiring.Blueprint.Basic
import Wiring.Blueprint.Memory
import Wiring.Blueprint.Sharing
import Wiring.Coercion
import Wiring.Collaborators
import Wiring.Container.Basic
import Wiring.Container.Create
import Wiring.Container.Lookup
import Wiring.Decimal.Basic
import Wiring.Decimal.Layout
import Wiring.Decimal.Reader
import Wiring.Decimal.Round
import Wiring.Decimal.Shortest
import Wiring.Edges
import Wiring.Error
import Wiring.Evaluation
import Wiring.Json
import Wiring.Managed
import Wiring.Naming
import Wiring.Ordered
import Wiring.Resolver.Basic
import Wiring.Resolver.Create
import Wiring.Resolver.Lookup
import Wiring.Resolver.Tree
import Wiring.Script
import Wiring.Session.Basic
import Wiring.Session.Step
import Wiring.Table
import Wiring.Tagged
import Wiring.Template
import Wiring.Text.Blank
import Wiring.Text.Hex
import Wiring.Text.Integer
import Wiring.Text.Quoted
import Wiring.Trace
import Wiring.Ty
import Wiring.Value.Basic
import Wiring.Value.Dump
import Wiring.Value.Equality
import Wiring.Value.Text
import Wiring.Proofs.Action.Along
import Wiring.Proofs.Action.Raises
import Wiring.Proofs.Action.SideBySide
import Wiring.Proofs.Blueprint.Cells
import Wiring.Proofs.Blueprint.Forgetting
import Wiring.Proofs.Blueprint.Growth
import Wiring.Proofs.Container.Along
import Wiring.Proofs.Container.Attribution
import Wiring.Proofs.Container.Blind
import Wiring.Proofs.Container.Candidates
import Wiring.Proofs.Container.Fallback
import Wiring.Proofs.Container.FreshName
import Wiring.Proofs.Container.Grants
import Wiring.Proofs.Container.Growth
import Wiring.Proofs.Container.History
import Wiring.Proofs.Container.Homes
import Wiring.Proofs.Container.Lookup
import Wiring.Proofs.Container.Making
import Wiring.Proofs.Container.ObjectLeaves
import Wiring.Proofs.Container.Singletons
import Wiring.Proofs.Container.Wires
import Wiring.Proofs.Naming
import Wiring.Proofs.Resolver.Along
import Wiring.Proofs.Resolver.Attribution
import Wiring.Proofs.Resolver.Forgetting
import Wiring.Proofs.Resolver.Growth
import Wiring.Proofs.Resolver.Leaves
import Wiring.Proofs.Resolver.Memory
import Wiring.Proofs.Resolver.Paths
import Wiring.Proofs.Resolver.SideBySide
import Wiring.Proofs.Resolver.Visits
import Wiring.Proofs.Session.Along
import Wiring.Proofs.Session.Blind
import Wiring.Proofs.Session.Cells
import Wiring.Proofs.Session.Coherence
import Wiring.Proofs.Session.InnerNames
import Wiring.Proofs.Session.Parents
import Wiring.Proofs.Session.Registrations
import Wiring.Proofs.Session.Singletons
import Wiring.Proofs.Session.Types
import Wiring.Proofs.Session.Wires
import Wiring.Proofs.Session.Work
import Wiring.Proofs.Ordered
import Wiring.Proofs.Value.Equality
import Wiring.Proofs.Resolver.Values
import Wiring.Proofs.Resolver.Faults
import Wiring.Proofs.Action.Traces
import Wiring.Proofs.Resolver.Edges
import Wiring.Proofs.Resolver.Ground
import Wiring.Proofs.Resolver.Parts
import Wiring.Proofs.Container.Injections
import Wiring.Proofs.Container.Attempts
import Wiring.Proofs.Container.ErrorChains
import Wiring.Proofs.Action.Ends
import Wiring.Proofs.Blueprint.Leaves
import Wiring.Proofs.Container.Ends
import Wiring.Proofs.Container.ObjectEnds
import Wiring.Proofs.Container.Ranks
import Wiring.Proofs.Container.Scopes
import Wiring.Proofs.Resolver.Protocol
import Wiring.Proofs.Template
import Wiring.Proofs.Container.Aliases
import Wiring.Proofs.Container.Classes
import Wiring.Proofs.Session.Products
import Wiring.Proofs.Action.InTurn
import Wiring.Proofs.Resolver.Collections
import Wiring.Proofs.Resolver.Tables
import Wiring.Proofs.Resolver.TypedElements
import Wiring.Proofs.Edges
import Wiring.Proofs.Coercion
import Wiring.Proofs.Resolver.Homogeneous
import Wiring.Proofs.Value.Hash
import Wiring.Proofs.Value.Insertion
import Wiring.Proofs.Resolver.StringArrays
import Wiring.Proofs.Value.Dump
