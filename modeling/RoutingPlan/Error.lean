-- What can go wrong, by cause, and the message for each cause.

namespace RoutingPlan

-- What the file system answers in place of a file.
inductive Fault where
  | notFound
  | isDirectory
  | notDirectory
  | alreadyExists
  -- A name on the way, or the whole path, is longer than the file system takes.
  | nameTooLong
  -- A path with a null character in it never reaches the file system.
  | nullInName
  | invalidText
  | other (text : String)
deriving DecidableEq

namespace Fault

def message : Fault → String
  | notFound => "No such file or directory (os error 2)"
  | isDirectory => "Is a directory (os error 21)"
  | notDirectory => "Not a directory (os error 20)"
  | alreadyExists => "File exists (os error 17)"
  | nameTooLong => "File name too long (os error 36)"
  | nullInName => "file name contained an unexpected NUL byte"
  | invalidText => "stream did not contain valid UTF-8"
  | other text => text

end Fault

inductive Error where
  | unknownStepKey (key : String)
  | routerMissingChildren (step : String)
  | childMissingRouteKey (parent child : String)
  | actionInvalidChildCardinality (step : String) (count : Nat)
  | planParse (reason : String)
  | danglingNode (node : String)
  | undeterminedRoute (router : String)
  | routerHasNoBranches (router : String)
  | unmatchedRouteKey (router routeKey : String)
  | step (step message : String)
  | emptyInput
  | valueType (expected actual : String)
  | settings (reason : String)
  | settingsNotFound (path : String)
  | io (fault : Fault)
  | json (reason : String)
deriving DecidableEq

namespace Error

def message : Error → String
  | .unknownStepKey key => s!"No step registered for key: {key}"
  | .routerMissingChildren name => s!"Router step {name} is missing children"
  | .childMissingRouteKey parent child => s!"Child {child} missing route key for parent {parent}"
  | .actionInvalidChildCardinality name count =>
    s!"Action step {name} can chain to at most one step, found {count} children"
  | .planParse reason => s!"Plan definition parse error: {reason}"
  | .danglingNode node => s!"Plan references node {node}, which it does not contain"
  | .undeterminedRoute router => s!"{router} could not determine a valid route key"
  | .routerHasNoBranches router => s!"Router {router} has no registered children"
  | .unmatchedRouteKey router routeKey =>
    s!"Route key '{routeKey}' not found for router '{router}'"
  | .step name cause => s!"Step {name} failed: {cause}"
  | .emptyInput => "Context input must not be empty"
  | .valueType expected actual => s!"Expected value of type '{expected}', but was '{actual}'"
  | .settings reason => s!"Config error: {reason}"
  | .settingsNotFound path => s!"Config file not found: {path}"
  | .io fault => s!"I/O error: {fault.message}"
  | .json reason => s!"JSON error: {reason}"

-- Whether a plan definition could not be made into a plan.
def isLoadError : Error → Bool
  | .unknownStepKey _ | .routerMissingChildren _ | .childMissingRouteKey _ _
  | .actionInvalidChildCardinality _ _ | .planParse _ | .danglingNode _ => true
  | _ => false

-- Whether a run found no way on from a router.
def isRoutingError : Error → Bool
  | .undeterminedRoute _ | .routerHasNoBranches _ | .unmatchedRouteKey _ _ => true
  | _ => false

end Error
end RoutingPlan
