import CallResolution.Answered
import CallResolution.Declarations
import CallResolution.Proofs.Hierarchy.Ancestors
import CallResolution.Proofs.Hierarchy.Cycles
import CallResolution.Proofs.Hierarchy.Visits
import CallResolution.Proofs.Hierarchy.BreadthFirst
import CallResolution.Proofs.Hierarchy.DeclaredOrder
import CallResolution.Proofs.Hierarchy.Recorded
import CallResolution.Proofs.Registry.Reachable
import CallResolution.Proofs.Conversion.Relation
import CallResolution.Proofs.Conversion.Order
import CallResolution.Proofs.Selection.Front
import CallResolution.Proofs.Selection.Outcome
import CallResolution.Proofs.Selection.Ambiguity
import CallResolution.Proofs.Catalogue.Content
import CallResolution.Proofs.Catalogue.Redirection
import CallResolution.Proofs.Conversion.HostBound
import CallResolution.Proofs.Catalogue.Stores
import CallResolution.Proofs.Catalogue.Integrity
import CallResolution.Proofs.Catalogue.MostDerived
import CallResolution.Proofs.Registry.Alike
import CallResolution.Proofs.DeclarationOrder
import CallResolution.Proofs.Cache.Transparency
import CallResolution.Proofs.Catalogue.Growth
import CallResolution.Proofs.Registry.Walk
import CallResolution.Proofs.Selection.Exact
import CallResolution.Proofs.Selection.OwnParameters
import CallResolution.Proofs.Cache.History
import CallResolution.Proofs.Cache.Slots
import CallResolution.Proofs.Registry.Diagnosis
import CallResolution.Proofs.Registry.Names
import CallResolution.Proofs.Catalogue.Hiding
import CallResolution.Proofs.Registry.Kinds
import CallResolution.Proofs.Conversion.Termination
import CallResolution.Proofs.Conversion.Growth
import CallResolution.Proofs.Conversion.Covariance
import CallResolution.Proofs.Conversion.Exactness
import CallResolution.Proofs.Identity.Mixing
import CallResolution.Proofs.Identity.ParameterOrder
import CallResolution.Registry.InPlace
import CallResolution.Proofs.Registry.Acceptance
