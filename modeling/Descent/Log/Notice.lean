import Descent.Double
import Descent.Log.Registry
import Descent.Notice

/-! Notices of a run as log records. -/
namespace Descent.Notice
open Decimal

private def short (x : Double) : String := generalText 6 x.value

private def long (x : Double) : String := generalText 12 x.value

/-- Searches and runs have loggers of their own. -/
def logger : Notice Double → String
  | zoomStopped _ | toleranceMissed _ => "cgopt.optimize.line_search"
  | _ => "cgopt.optimize.conjgrad"

/-- Spent budgets are warned of; all else is for debugging. -/
def level : Notice Double → Int
  | toleranceMissed _ | exhausted _ _ => 30
  | _ => 10

def message : Notice Double → String
  | zoomStopped t => "zoom stopped without curvature condition, alpha=" ++ short t
  | toleranceMissed n => s!"brent_minimize reached {n} iterations without meeting tol"
  | started method lineSearch f =>
    s!"conjugate gradient ({method}, {lineSearch} line search) from f=" ++ short f
  | progressed k f step test =>
    s!"iter {k}: f=" ++ long f ++ " step=" ++ short step ++ " gtest=" ++ short test
  | restarted k => s!"iter {k}: not a descent direction, restarting"
  | exhausted n f =>
    s!"conjugate gradient failed to converge after {n} iterations (f=" ++ short f ++ ")"
  | finished status k f nfev njev =>
    status.message ++ s!" nit={k} f=" ++ long f ++ s!" nfev={nfev} njev={njev}"

/-- Logs notices in turn. -/
def logAll (r : Log.Registry) (ns : List (Notice Double)) : Log.Registry :=
  ns.foldl (fun r n => r.log (some n.logger) n.level n.message) r

end Descent.Notice
