import Stepper.Main
import Stepper.Proofs.Cancellation
import Stepper.Proofs.BranchChain
import Stepper.Proofs.Pausing
import Stepper.Proofs.Termination
import Stepper.Proofs.Resting
import Stepper.Proofs.Scheduling
import Stepper.Proofs.Positions
import Stepper.Proofs.Respacing
import Stepper.Proofs.Budget
import Stepper.Proofs.ControlFlow
import Stepper.Proofs.BreakpointLines
import Stepper.Proofs.Requests
import Stepper.Proofs.BusDelivery
import Stepper.Proofs.Rebinding
import Stepper.Proofs.NestingLimit
import Stepper.Proofs.DiagnosticOrder
import Stepper.Proofs.LineRecovery
import Stepper.Proofs.SpanNesting
import Stepper.Proofs.StringLiterals
import Stepper.Proofs.ReadingProgress
import Stepper.Proofs.TemplateRendering
import Stepper.Proofs.ScopeWalks
import Stepper.Proofs.Equality
