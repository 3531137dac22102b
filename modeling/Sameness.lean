import Sameness.Basic
import Sameness.Compound.Basic
import Sameness.Compound.Labelled
import Sameness.Compound.Tree
import Sameness.Refinement.Basic
import Sameness.Refinement.Run
import Sameness.Shape
import Sameness.Sample.Basic
import Sameness.Sample.Check
import Sameness.PointSet
import Sameness.Specimen
import Sameness.Catalogue.Scalar
import Sameness.Catalogue.Schema
import Sameness.Catalogue.Types
import Sameness.Integer
import Sameness.Enquiry.Comparison
import Sameness.Enquiry.Membership
import Sameness.Enquiry.Mapping
import Sameness.Enquiry.Labels
import Sameness.Enquiry.Refinement
import Sameness.Enquiry.Codec
import Sameness.Demonstration
import Sameness.Main
import Sameness.Proofs.Compound
import Sameness.Proofs.Tree.Termination
import Sameness.Proofs.Labelled.RoundTrip
import Sameness.Proofs.Labelled.Transport
import Sameness.Proofs.Shape.Identity
import Sameness.Proofs.Shape.Componentwise
import Sameness.Proofs.Refinement.Run
import Sameness.Proofs.Refinement.Tower
import Sameness.Proofs.Refinement.Faithful
import Sameness.Proofs.Sample.Equivalence
import Sameness.Proofs.Sample.Cancellation
import Sameness.Proofs.Sample.Agreement
import Sameness.Proofs.Sample.Refinement
import Sameness.Proofs.Sample.Check
import Sameness.Proofs.PointSet
import Sameness.Proofs.Specimen.Packing
