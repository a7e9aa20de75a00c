import RoutingPlan.Toml.Text
import RoutingPlan.Toml.Scalar
import RoutingPlan.Toml.Table

-- Reading TOML documents, line by line: `Document.line` takes up one line, and `Value.ofText?` is
-- the whole document as a table.

namespace RoutingPlan.Toml

-- Dotted keys are shorter than this, and values less deeply nested.
def depthLimit : Nat := 80

def skipBlanks (cs : List Char) : List Char :=
  cs.dropWhile isBlank

def isCommentChar (c : Char) : Bool :=
  !isControl c

-- The rest of a line that holds at most a comment, with its end.
def readLineEnd (cs : List Char) : Option (List Char) :=
  let cs := match skipBlanks cs with
    | '#' :: cs => cs.dropWhile isCommentChar
    | cs => cs
  match cs with
  | [] => some []
  | cs => readNewline cs

-- Blanks, line breaks and comments; `inside` holds within a comment.
def skipTrivia (inside : Bool) : List Char → List Char
  | [] => []
  | '\n' :: cs => skipTrivia false cs
  | '\r' :: '\n' :: cs => skipTrivia false cs
  | c :: cs =>
    if inside then if isCommentChar c then skipTrivia true cs else c :: cs
    else if isBlank c then skipTrivia false cs
    else if c = '#' then skipTrivia true cs
    else c :: cs

def isBareKeyChar (c : Char) : Bool :=
  c.isAlphanum || c == '-' || c == '_'

-- A key, bare or in quotes on one line.
def readSimpleKey (cs : List Char) : Option (String × List Char) :=
  match cs with
  | '"' :: r => (readBasic cs.length r).map fun (s, cs) => (String.ofList s, cs)
  | '\'' :: r => (readLiteral r).map fun (s, cs) => (String.ofList s, cs)
  | cs =>
    let name := cs.takeWhile isBareKeyChar
    if name.isEmpty then none
    else some (String.ofList name, cs.dropWhile isBareKeyChar)

-- Keys with points between them, at most `n`; blanks can stand around each.
def readKeys : Nat → List Char → Option (List String × List Char)
  | 0, _ => none
  | n + 1, cs =>
    match readSimpleKey (skipBlanks cs) with
    | none => none
    | some (key, cs) =>
      match skipBlanks cs with
      | '.' :: cs => (readKeys n cs).map fun (keys, cs) => (key :: keys, cs)
      | cs => some ([key], cs)

-- A dotted key: its last part, and the path to it.
def readKey (cs : List Char) : Option ((List String × String) × List Char) := do
  let (keys, cs) ← readKeys (cs.length + 1) cs
  let last ← keys.getLast?
  if keys.length < depthLimit then some ((keys.dropLast, last), cs) else none

mutual

-- A value inside `depth` others. The bound counts the readers that are entered.
def readValue : Nat → Nat → List Char → Option (Value × List Char)
  | 0, _, _ => none
  | n + 1, depth, cs =>
    match cs with
    | '[' :: cs =>
      if depth + 1 < depthLimit then
        (readElements n (depth + 1) cs).map fun (vs, cs) => (.array vs, cs)
      else none
    | '{' :: cs =>
      if depth + 1 < depthLimit then
        match skipBlanks cs with
        | '}' :: cs => some (.table [], cs)
        | cs => (readEntries n (depth + 1) .new cs).map fun (t, cs) => (t.toValue, cs)
      else none
    | c :: _ =>
      if c = '"' ∨ c = '\'' then (readString cs).map fun (s, cs) => (.string s, cs)
      else readScalar cs
    | [] => none

-- The elements of an array and the bracket after them; a comma can follow the last.
def readElements : Nat → Nat → List Char → Option (List Value × List Char)
  | 0, _, _ => none
  | n + 1, depth, cs =>
    match skipTrivia false cs with
    | ']' :: cs => some ([], cs)
    | cs =>
      match readValue n depth cs with
      | none => none
      | some (v, cs) =>
        match skipTrivia false cs with
        | ',' :: cs => (readElements n depth cs).map fun (vs, cs) => (v :: vs, cs)
        | ']' :: cs => some ([v], cs)
        | _ => none

-- The entries of a table on one line and the brace after them, one at least.
def readEntries : Nat → Nat → Table → List Char → Option (Table × List Char)
  | 0, _, _, _ => none
  | n + 1, depth, t, cs =>
    match readKey cs with
    | some ((path, key), '=' :: cs) =>
      match readValue n depth (skipBlanks cs) with
      | none => none
      | some (v, cs) =>
        match t.define path key v, skipBlanks cs with
        | some t, ',' :: cs => readEntries n depth t cs
        | some t, '}' :: cs => some (t, cs)
        | _, _ => none
    | _ => none

end

-- Where the lines after a header go.
inductive Section where
  | top
  | table (path : List String) (key : String)
  | element (path : List String) (key : String)

-- The tables of the sections that have ended, and the section that is being read.
structure Document where
  root : Table
  place : Section
  current : Table

namespace Document

def empty : Document := ⟨.new, .top, .new⟩

-- Puts the section that is being read where it belongs.
def close (d : Document) : Option Table :=
  match d.place with
  | .top => some d.current
  | .table path key => d.root.putTable path key d.current
  | .element path key => d.root.addTable path key d.current

def openTable (d : Document) (path : List String) (key : String) : Option Document := do
  let (current, root) ← (← d.close).takeTable path key
  some ⟨root, .table path key, current⟩

def openElement (d : Document) (path : List String) (key : String) : Option Document := do
  let root ← (← d.close).reserveTables path key
  some ⟨root, .element path key, .new⟩

def define (d : Document) (path : List String) (key : String) (v : Value) : Option Document :=
  (d.current.define path key v).map fun t => { d with current := t }

-- Takes up one line that is not blank: a header or a key with its value.
def line (d : Document) (cs : List Char) : Option (Document × List Char) :=
  match cs with
  | '[' :: '[' :: cs => do
    let ((path, key), cs) ← readKey cs
    match cs with
    | ']' :: ']' :: cs => some (← d.openElement path key, ← readLineEnd cs)
    | _ => none
  | '[' :: cs => do
    let ((path, key), cs) ← readKey cs
    match cs with
    | ']' :: cs => some (← d.openTable path key, ← readLineEnd cs)
    | _ => none
  | cs => do
    let ((path, key), cs) ← readKey cs
    match cs with
    | '=' :: cs =>
      let (v, cs) ← readValue (2 * cs.length + 2) 0 (skipBlanks cs)
      some (← d.define path key v, ← readLineEnd cs)
    | _ => none

-- Takes up at most `n` lines.
def lines : Nat → Document → List Char → Option Document
  | 0, _, _ => none
  | n + 1, d, cs =>
    match skipBlanks cs with
    | [] => some d
    | c :: cs =>
      if c = '#' ∨ c = '\n' ∨ c = '\r' then (readLineEnd (c :: cs)).bind (lines n d)
      else (d.line (c :: cs)).bind fun (d, cs) => lines n d cs

end Document

-- The table that a whole text defines. A byte order mark can stand before it.
def Value.ofText? (s : String) : Option Value :=
  let cs := match s.toList with
    | '\uFEFF' :: cs => cs
    | cs => cs
  do
    let d ← Document.lines (cs.length + 1) .empty cs
    (← d.close).toValue

end RoutingPlan.Toml
