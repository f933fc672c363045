import TrustRegion.Decimal.Reader
import TrustRegion.Settings.LogFile
import TrustRegion.Stepper.Cauchy
import TrustRegion.Stepper.Dogleg
import TrustRegion.Wording.Decimal
import TrustRegion.Proofs.Stepper.Independence
import TrustRegion.Proofs.Stepper.Decrease
import TrustRegion.Proofs.Stepper.Preparation
import TrustRegion.Proofs.Stepper.Agreement
import TrustRegion.Proofs.Stepper.SolverChoice
import TrustRegion.Proofs.Solver.Minimiser
import TrustRegion.Proofs.Solver.Criterion
import TrustRegion.Proofs.Solver.Rescaling
import TrustRegion.Proofs.Stepper.Continuity
import TrustRegion.Proofs.Stepper.SecondLeg
import TrustRegion.Proofs.Model.LeastSquares
import TrustRegion.Proofs.Solver.Acceptance
import TrustRegion.Proofs.Stepper.Homogeneity
import TrustRegion.Proofs.Stepper.Overflow
import TrustRegion.Proofs.Solver.Reuse
import TrustRegion.Proofs.Stepper.Laziness
import TrustRegion.Proofs.Stepper.Coherence
import TrustRegion.Proofs.Settings.Entries
import TrustRegion.Proofs.Path.OnlyCrossing
