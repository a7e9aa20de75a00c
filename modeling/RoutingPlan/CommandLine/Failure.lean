import RoutingPlan.Error

-- Failures: why the program gives up, with the causes below the outermost one.

namespace RoutingPlan.CommandLine

structure Failure where
  message : String
  causes : List String := []
deriving DecidableEq

namespace Failure

def ofError (e : Error) : Failure :=
  ⟨e.message, []⟩

-- A message and the chain of errors below it. What the file system answered is a cause of its own.
def because (message : String) (e : Error) : Failure :=
  ⟨message, e.message :: match e with
    | .io fault => [fault.message]
    | _ => []⟩

-- A text with the given start, and the given margin on all lines but the first.
def hang (start margin : String) (text : String) : String :=
  start ++ ("\n" ++ margin).intercalate ((text.toList.splitOn '\n').map String.ofList)

-- A cause alone stands bare, several are numbered from zero.
def renderCauses : List String → List String
  | [] => []
  | [cause] => [hang "    " "    " cause]
  | causes => causes.zipIdx.map fun (cause, n) =>
    let number := toString n
    hang (String.ofList (List.replicate (5 - number.length) ' ') ++ number ++ ": ") "       " cause

def text (f : Failure) : String :=
  let causes := match renderCauses f.causes with
    | [] => ""
    | lines => "\n\nCaused by:\n" ++ "\n".intercalate lines
  s!"Error: {f.message}{causes}\n"

end Failure
end RoutingPlan.CommandLine
