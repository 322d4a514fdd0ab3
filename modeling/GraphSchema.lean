import GraphSchema.Event
import GraphSchema.Print.Dump
import GraphSchema.Proofs.Schema.References
import GraphSchema.Proofs.Schema.Covariance
import GraphSchema.Proofs.Schema.InputFields
import GraphSchema.Proofs.Schema.Calls
import GraphSchema.Proofs.Schema.Growth
import GraphSchema.Proofs.Schema.Dispatch
import GraphSchema.Proofs.Schema.Reports
import GraphSchema.Proofs.Schema.Deferral
import GraphSchema.Proofs.Print.Structure
import GraphSchema.Proofs.Types.Input
import GraphSchema.Proofs.Schema.Classifiers
import GraphSchema.Proofs.Types.EnumConversion
import GraphSchema.Proofs.Request.Location
import GraphSchema.Proofs.Print.Description
import GraphSchema.Proofs.Print.Value
import GraphSchema.Proofs.Number.Integral
import GraphSchema.Proofs.Number.Numeral
import GraphSchema.Proofs.Types.IntCoercion
import GraphSchema.Proofs.Types.Stability
import GraphSchema.Proofs.Print.Coverage
import GraphSchema.Proofs.Types.Descriptions
import GraphSchema.Proofs.Schema.Descriptions
import GraphSchema.Proofs.Print.Documentation
import GraphSchema.Proofs.Execution.Context
import GraphSchema.Proofs.Report.Envelope
import GraphSchema.Proofs.Report.FieldError
import GraphSchema.Proofs.Schema.Relaxation
import GraphSchema.Proofs.Types.FieldFaults
import GraphSchema.Proofs.Types.InputEntries
