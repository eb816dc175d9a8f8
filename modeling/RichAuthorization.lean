import RichAuthorization.Main
import RichAuthorization.Proofs.Coverage
import RichAuthorization.Proofs.Narrowing
import RichAuthorization.Proofs.Detail
import RichAuthorization.Proofs.Introspection
import RichAuthorization.Proofs.Gate
import RichAuthorization.Proofs.Selection
import RichAuthorization.Proofs.EmptyGrant
import RichAuthorization.Proofs.WellFormedness
import RichAuthorization.Proofs.Organization
import RichAuthorization.Proofs.Failure
import RichAuthorization.Proofs.Questions
import RichAuthorization.Proofs.Independence
import RichAuthorization.Proofs.RoundTrip
import RichAuthorization.Proofs.Enrichment
import RichAuthorization.Proofs.Registration
import RichAuthorization.Proofs.Classification
import RichAuthorization.Proofs.Dependence
import RichAuthorization.Proofs.Editing
import RichAuthorization.Proofs.Lookups
import RichAuthorization.Proofs.Identity
import RichAuthorization.Proofs.Configured
import RichAuthorization.Proofs.PublicClient
import RichAuthorization.Proofs.Agreement
import RichAuthorization.Proofs.NarrowingSteps
import RichAuthorization.Proofs.SelfValidation
import RichAuthorization.Proofs.Monotonicity
import RichAuthorization.Proofs.Batches
import RichAuthorization.Proofs.Loosening
import RichAuthorization.Proofs.GrantOrder
import RichAuthorization.Proofs.SupportedTypes
import RichAuthorization.Proofs.Acceptance
import RichAuthorization.Proofs.ParameterOrder
import RichAuthorization.Proofs.TypeRecords
import RichAuthorization.Proofs.ArraysAsSets
import RichAuthorization.Proofs.Grouping
import RichAuthorization.Proofs.Words
import RichAuthorization.Proofs.Members
import RichAuthorization.Proofs.Forms
import RichAuthorization.Proofs.Unread
import RichAuthorization.Proofs.Strictness
