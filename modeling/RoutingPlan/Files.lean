import RoutingPlan.Error
import RoutingPlan.Keyed
import RoutingPlan.Path

-- A small file system: the directory in which a program runs, with the files and directories below
-- it, and what the program puts below the root. Everything is found by the names on the way to it.

namespace RoutingPlan

inductive Files.Entry where
  | directory
  | file (content : ByteArray)

-- The names on the way from the directory of the program, or from the root after a slash.
abbrev Files.Place := List String

structure Files where
  entries : List (Files.Place × Files.Entry)

namespace Files

def empty : Files := ⟨[]⟩

-- Where a path begins.
def origin (path : String) : Place :=
  if Path.isAbsolute path then ["/"] else []

-- Directories that every root holds.
def rootNames : List String :=
  ["bin", "dev", "etc", "home", "lib", "proc", "root", "run", "sbin", "sys", "tmp", "usr", "var"]

-- What is there before anything is made: the root and what it holds, a file in it that is always
-- empty, the directory of the program, and those above it.
def standing? : Place → Option Entry
  | ["/"] => some .directory
  | ["/", "dev", "null"] => some (.file .empty)
  | ["/", name] => if rootNames.contains name then some .directory else none
  | place => if place.all (· == "..") then some .directory else none

def entry? (fs : Files) (place : Place) : Option Entry :=
  (standing? place).or (Keyed.get? place fs.entries)

-- One name further on the way, where a single point stays and two points go up.
def descend (place : Place) (name : List Char) : Place :=
  if name = [] ∨ name = ['.'] then place
  else if name = ['.', '.'] then
    if place = ["/"] then place
    else if place.all (· == "..") then place ++ [".."]
    else place.dropLast
  else place ++ [String.ofList name]

-- The place that a path names, whether anything is there or not.
def placeOf (path : String) : Place :=
  (Path.segments path.toList).foldl descend (origin path)

-- How many bytes a name may have.
def longestName : Nat := 255

-- How many bytes a path may have.
def longestPath : Nat := 4095

def isLongName (name : List Char) : Bool :=
  longestName < (String.ofList name).utf8ByteSize

-- Goes down from a directory, name by name. A path with a slash at its end names a directory.
def walk (fs : Files) : Place → List (List Char) → Except Fault Place
  | place, [] => .ok place
  | place, name :: names =>
    match fs.entry? place with
    | none => .error .notFound
    | some (.file _) => .error .notDirectory
    | some .directory =>
      if isLongName name then .error .nameTooLong else walk fs (descend place name) names

-- The place that a path leads to, where there need not be anything yet: only what is above it has
-- to be there.
def resolve (fs : Files) (path : String) : Except Fault Place :=
  if path.toList.contains '\x00' then .error .nullInName
  else if path.isEmpty then .error .notFound
  else if longestPath < path.utf8ByteSize then .error .nameTooLong
  else fs.walk (origin path) (Path.segments path.toList)

-- The entry that a path leads to.
def lookup (fs : Files) (path : String) : Except Fault Entry := do
  match fs.entry? (← fs.resolve path) with
  | some e => .ok e
  | none => .error .notFound

def contains (fs : Files) (path : String) : Bool :=
  (fs.lookup path).isOk

-- The content of a file as text.
def read (fs : Files) (path : String) : Except Fault String := do
  match ← fs.lookup path with
  | .directory => .error .isDirectory
  | .file content =>
    match String.fromUTF8? content with
    | some text => .ok text
    | none => .error .invalidText

def put (fs : Files) (place : Place) (e : Entry) : Files :=
  ⟨Keyed.put place e fs.entries⟩

-- A directory where a path leads, made now or there before.
def ensureDir (fs : Files) (path : String) : Except Fault Files := do
  let place ← fs.resolve path
  match fs.entry? place with
  | none => .ok (fs.put place .directory)
  | some .directory => .ok fs
  | some (.file _) => .error .alreadyExists

-- Makes the first of some directories. Only if what is above it is missing, the others are made
-- before it, the last of them first.
def ensureDirs (fs : Files) : List String → Except Fault Files
  | [] => .ok fs
  | path :: above =>
    match fs.ensureDir path with
    | .error .notFound => do (← ensureDirs fs above).ensureDir path
    | answer => answer

-- Makes the directory that a path leads to, and those above it.
def makeDir (fs : Files) (path : String) : Except Fault Files :=
  fs.ensureDirs (Path.ascent path)

-- Puts a file where a path leads; what the file is to hold can depend on what it held.
def update (fs : Files) (path : String) (f : ByteArray → ByteArray) : Except Fault Files := do
  let fs ← fs.makeDir ((Path.parent? path).getD "")
  let place ← fs.resolve path
  match fs.entry? place with
  | some .directory => .error .isDirectory
  | some (.file content) => .ok (fs.put place (.file (f content)))
  | none => .ok (fs.put place (.file (f .empty)))

-- Writes a file, and the directories above it.
def write (fs : Files) (path : String) (content : ByteArray) : Except Fault Files :=
  fs.update path fun _ => content

-- Adds a text to the end of a file, which is made if it is not there, with the directories above
-- it.
def append (fs : Files) (path text : String) : Except Fault Files :=
  fs.update path (· ++ text.toUTF8)

end Files
end RoutingPlan
