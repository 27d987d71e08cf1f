import Descent.DebugMode
import Descent.Formula.Model
import Descent.Log.Notice
import Descent.Proofs.Outcome
import Descent.Proofs.Search.Zoom
import Descent.Proofs.Exact
import Descent.Proofs.Search.Wolfe
import Descent.Proofs.Search.Bracket
import Descent.Proofs.Search.Brent
import Descent.Proofs.Run.Iteration
import Descent.Proofs.Run.Trajectory
import Descent.Proofs.Run.Record
import Descent.Proofs.Agreement
import Descent.Proofs.Search.Decrease
import Descent.Proofs.Conjugacy
import Descent.Proofs.Directions
import Descent.Proofs.ExactSearch
import Descent.Proofs.Monotone
import Descent.Proofs.Run.Methods
import Descent.Proofs.Termination
import Descent.Proofs.Stopping
import Descent.Proofs.GradientCheck
import Descent.Proofs.Run.Counting
import Descent.Proofs.Accounting
import Descent.Proofs.Run.Progress
import Descent.Proofs.Run.Beside
import Descent.Proofs.Stricter
import Descent.Proofs.Run.Raise
import Descent.Proofs.Raise
import Descent.ConjugateGradient.Workspace
import Descent.Proofs.Run.Workspace
import Descent.Proofs.Run.Shadow
import Descent.Proofs.Run.Checks
import Descent.Proofs.Observation
import Descent.Proofs.Afresh
import Descent.Proofs.Search.Division
import Descent.Proofs.Search.Trail
import Descent.Proofs.Certificate
import Descent.Proofs.Curvature
import Descent.Proofs.Enclosure
import Descent.Proofs.Failures
import Descent.Proofs.Log.Layout
import Descent.Proofs.Log.Uniform
import Descent.Proofs.Logging
import Descent.Proofs.Confinement
import Descent.Proofs.Unimodal
import Descent.Proofs.Search.Budget
import Descent.Proofs.Calls
import Descent.Scratch
import Descent.Proofs.Scratch
import Descent.Proofs.FiniteDifference
import Descent.Proofs.Exhaustion
import Descent.Proofs.Undefined
import Descent.Proofs.Snapshots
import Descent.ConjugateGradient.Solve
import Descent.Proofs.Itinerary
import Descent.Proofs.Solution
import Descent.Proofs.Entry
import Descent.Proofs.Narrowing
