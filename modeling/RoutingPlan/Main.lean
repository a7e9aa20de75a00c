import RoutingPlan.CommandLine.Program
import RoutingPlan.Text.Lines
import Std.Time.DateTime.Timestamp

-- The program on a real machine.

namespace RoutingPlan.CommandLine.Machine

-- The number of an error of the system. Some errors carry it with its sign turned.
def errorNumber (code : UInt32) : UInt32 :=
  if code < 0x80000000 then code else 0 - code

def faultOf : IO.Error → Fault
  | .noFileOrDirectory _ _ _ => .notFound
  | .alreadyExists _ _ _ => .alreadyExists
  | .inappropriateType _ code _ =>
    if errorNumber code = 21 then .isDirectory else .notDirectory
  | e@(.invalidArgument _ code _) =>
    if errorNumber code = 36 then .nameTooLong else .other (toString e)
  | .permissionDenied _ _ _ => .other "Permission denied (os error 13)"
  | e => .other (toString e)

-- Whether a path can be given to the file system, which takes a null for its end.
def isGivable (path : String) : Bool :=
  !path.toList.contains '\x00'

def contains (path : String) : IO Bool := do
  unless isGivable path do return false
  try
    discard (IO.FS.Handle.mk path .read)
    return true
  catch e =>
    return match faultOf e with
      | .notFound | .notDirectory | .nameTooLong => false
      | _ => true

def read (path : String) : IO (Except Fault String) := do
  unless isGivable path do return .error .nullInName
  try
    match String.fromUTF8? (← IO.FS.readBinFile path) with
    | some text => return .ok text
    | none => return .error .invalidText
  catch e => return .error (faultOf e)

-- The value of a variable, which the machine looks for among the entries of its environment. A null
-- would be taken for the end of the name.
def lookup (name : String) : IO (Option String) :=
  if name.toList.contains '\x00' then return none else IO.getEnv name

def now : IO Instant := do
  let t ← Std.Time.Timestamp.now
  return ⟨t.val.second.val, t.val.nano.val.toNat⟩

-- A run does not ask for the time of each record, so all of them get that of its beginning.
def clock : IO Clock := do
  return .still (← now)

-- The text of a random identifier of 128 bits, of which six are fixed.
def runIdOf (bytes : List Nat) : RunId :=
  let fixed := bytes.zipIdx.map fun (b, i) =>
    if i = 6 then b % 16 + 64 else if i = 8 then b % 64 + 128 else b
  ⟨String.ofList (fixed.zipIdx.flatMap fun (b, i) =>
    (if [4, 6, 8, 10].contains i then ['-'] else []) ++
      [Json.hexDigit (b / 16), Json.hexDigit (b % 16)])⟩

def freshRunId : IO RunId := do
  return runIdOf ((← IO.getRandomBytes 16).toList.map UInt8.toNat)

def append (path text : String) : IO Unit := do
  unless isGivable path do return
  try
    let dir := (Path.parent? path).getD ""
    unless dir.isEmpty do IO.FS.createDirAll dir
    let file ← IO.FS.Handle.mk path .append
    file.putStr text
  catch _ => return

def emit : Output → IO Unit
  | .out text => do
    let stream ← IO.getStdout
    stream.putStr text
    stream.flush
  | .err text => do (← IO.getStderr).putStr text
  | .log path text => append path text

-- The bytes up to the next line feed, and that one too. There are none at the end of the input.
partial def readLine (stream : IO.FS.Stream) (line : ByteArray) : IO ByteArray := do
  let bytes ← stream.read 1
  let line := line ++ bytes
  if bytes.isEmpty || bytes.toList = [10] then return line else readLine stream line

-- The input up to its end or to a line that is no text.
partial def readText (stream : IO.FS.Stream) (text : String) : IO String := do
  match String.fromUTF8? (← readLine stream .empty) with
  | some line => if line.isEmpty then return text else readText stream (text ++ line)
  | none => return text

partial def converse (chat : Chat) (prompt : String) (display : Turn → List Output) :
    IO (Option Failure) := do
  emit (.out prompt)
  match String.fromUTF8? (← readLine (← IO.getStdin) .empty) with
  | none => return some ⟨Fault.invalidText.message, []⟩
  | some line =>
    if line.isEmpty then return none
    match chat.hear (← clock) chat.plan.moves ⟨← freshRunId, ← now, 0⟩ line with
    | .leave => return none
    | .fail e => return some (.ofError e)
    | .answer t =>
      (display t).forM emit
      converse (chat.after t) prompt display

def host : Host IO where
  contains := contains
  read := read
  lookup := lookup
  inputLines := return Text.lines (← readText (← IO.getStdin) "")
  now := now
  clock := clock
  freshRunId := freshRunId
  emit := emit
  converse := converse

end RoutingPlan.CommandLine.Machine

def main (args : List String) : IO UInt32 := do
  let code ← RoutingPlan.CommandLine.Program.execute RoutingPlan.CommandLine.Machine.host args
  return code.toUInt32
