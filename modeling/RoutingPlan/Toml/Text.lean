import RoutingPlan.Json.Reader

-- Strings of TOML: the four ways to quote one. `readString` reads any of them, `renderString`
-- writes a string in the plainest way that can hold it.

namespace RoutingPlan.Toml

def isBlank (c : Char) : Bool :=
  c == ' ' || c == '\t'

-- Every control character but the tab.
def isControl (c : Char) : Bool :=
  (c.toNat < 0x20 && c != '\t') || c == '\x7f'

-- A line ends with a line feed, which a carriage return can precede.
def readNewline : List Char → Option (List Char)
  | '\n' :: cs => some cs
  | '\r' :: '\n' :: cs => some cs
  | _ => none

def hexNumber? (cs : List Char) : Option Nat :=
  cs.foldl (fun n c => do return (← n) * 16 + (← Json.hexValue? c)) (some 0)

-- The character that an escape of `n` hexadecimal digits stands for, and what comes after it.
def readCodePoint (n : Nat) (cs : List Char) : Option (Char × List Char) := do
  let ds := cs.take n
  let k ← hexNumber? ds
  if ds.length = n ∧ k.isValidChar then some (Char.ofNat k, cs.drop n) else none

-- What comes after a backslash.
def readEscape : List Char → Option (Char × List Char)
  | [] => none
  | c :: cs =>
    if c = '"' ∨ c = '\\' then some (c, cs)
    else if c = 'b' then some ('\x08', cs)
    else if c = 't' then some ('\t', cs)
    else if c = 'n' then some ('\n', cs)
    else if c = 'f' then some ('\x0c', cs)
    else if c = 'r' then some ('\r', cs)
    else if c = 'u' then readCodePoint 4 cs
    else if c = 'U' then readCodePoint 8 cs
    else none

-- The rest of a literal string, after its quote: nothing in it is escaped.
def readLiteral : List Char → Option (List Char × List Char)
  | [] => none
  | c :: cs =>
    if c = '\'' then some ([], cs)
    else if isControl c then none
    else (readLiteral cs).map fun (s, cs) => (c :: s, cs)

-- Three quotes end a string of several lines; up to two more before them belong to it.
def readClose (q : Char) : List Char → Option (List Char × List Char)
  | a :: b :: c :: cs =>
    if a = q ∧ b = q ∧ c = q then
      match cs with
      | d :: e :: cs' =>
        if d = q ∧ e = q then some ([q, q], cs')
        else if d = q then some ([q], e :: cs')
        else some ([], cs)
      | [d] => if d = q then some ([q], []) else some ([], cs)
      | [] => some ([], [])
    else none
  | _ => none

-- The rest of a literal string of several lines, of at most `n` characters.
def readLiteralLines : Nat → List Char → Option (List Char × List Char)
  | 0, _ => none
  | _ + 1, [] => none
  | n + 1, c :: cs =>
    match readClose '\'' (c :: cs), readNewline (c :: cs) with
    | some closed, _ => some closed
    | none, some cs => (readLiteralLines n cs).map fun (s, cs) => ('\n' :: s, cs)
    | none, none =>
      if isControl c then none else (readLiteralLines n cs).map fun (s, cs) => (c :: s, cs)

-- The rest of a basic string, of at most `n` characters.
def readBasic : Nat → List Char → Option (List Char × List Char)
  | 0, _ => none
  | _ + 1, [] => none
  | n + 1, c :: cs =>
    if c = '"' then some ([], cs)
    else if c = '\\' then
      match readEscape cs with
      | some (e, cs) => (readBasic n cs).map fun (s, cs) => (e :: s, cs)
      | none => none
    else if isControl c then none
    else (readBasic n cs).map fun (s, cs) => (c :: s, cs)

-- Drops blanks and line breaks.
def skipBlankLines : List Char → List Char
  | '\n' :: cs => skipBlankLines cs
  | '\r' :: '\n' :: cs => skipBlankLines cs
  | c :: cs => if isBlank c then skipBlankLines cs else c :: cs
  | [] => []

-- A backslash at the end of a line takes the line break away with all blanks around it.
def skipLineEnd (cs : List Char) : Option (List Char) :=
  (readNewline (cs.dropWhile isBlank)).map skipBlankLines

-- The rest of a basic string of several lines, of at most `n` characters.
def readBasicLines : Nat → List Char → Option (List Char × List Char)
  | 0, _ => none
  | _ + 1, [] => none
  | n + 1, c :: cs =>
    match readClose '"' (c :: cs), readNewline (c :: cs) with
    | some closed, _ => some closed
    | none, some cs => (readBasicLines n cs).map fun (s, cs) => ('\n' :: s, cs)
    | none, none =>
      if c = '\\' then
        match skipLineEnd cs with
        | some cs => readBasicLines n cs
        | none =>
          match readEscape cs with
          | some (e, cs) => (readBasicLines n cs).map fun (s, cs) => (e :: s, cs)
          | none => none
      else if isControl c then none
      else (readBasicLines n cs).map fun (s, cs) => (c :: s, cs)

-- A line break right after the opening quotes does not belong to the string.
def dropFirstNewline (cs : List Char) : List Char :=
  (readNewline cs).getD cs

-- A string in any of the four ways.
def readString (cs : List Char) : Option (String × List Char) :=
  let n := cs.length + 1
  let chars := match cs with
    | '"' :: '"' :: '"' :: cs => readBasicLines n (dropFirstNewline cs)
    | '\'' :: '\'' :: '\'' :: cs => readLiteralLines n (dropFirstNewline cs)
    | '"' :: cs => readBasic n cs
    | '\'' :: cs => readLiteral cs
    | _ => none
  chars.map fun (s, cs) => (String.ofList s, cs)

-- Whether some character comes three times in a row.
def hasTriple (q : Char) : List Char → Bool
  | a :: b :: c :: cs => (a == q && b == q && c == q) || hasTriple q (b :: c :: cs)
  | _ => false

def upperHex (n : Nat) : Char :=
  if n < 10 then Char.ofNat ('0'.toNat + n) else Char.ofNat ('A'.toNat + n - 10)

-- A character of a basic string that is neither a quote nor a line feed.
def escapeBasic (c : Char) : List Char :=
  if c = '\\' then ['\\', '\\']
  else if c = '\x08' then ['\\', 'b']
  else if c = '\t' then ['\\', 't']
  else if c = '\x0c' then ['\\', 'f']
  else if c = '\r' then ['\\', 'r']
  else if isControl c then
    ['\\', 'u', '0', '0', upperHex (c.toNat / 16), upperHex (c.toNat % 16)]
  else [c]

def escapeLine (c : Char) : List Char :=
  if c = '"' then ['\\', '"']
  else if c = '\n' then ['\\', 'n']
  else escapeBasic c

-- The characters of a string of several lines after `run` bare quotes in a row: every third quote
-- is escaped.
def escapeLines : Nat → List Char → List Char
  | _, [] => []
  | run, c :: cs =>
    if c = '"' then
      if run = 2 then '\\' :: '"' :: escapeLines 0 cs else '"' :: escapeLines (run + 1) cs
    else if c = '\n' then '\n' :: escapeLines 0 cs
    else escapeBasic c ++ escapeLines 0 cs

-- The text of a string. A string without anything special stands in plain quotes; else the literal
-- forms are taken where they can hold it, and escapes where nothing else can.
def renderString (s : String) : List Char :=
  let cs := s.toList
  let lines := cs.contains '\n'
  let controls := cs.any fun c => isControl c && c != '\n'
  let opening (q : Char) := q :: q :: q :: if lines then ['\n'] else []
  if !controls && !lines && !cs.contains '\\' && !cs.contains '"' then
    '"' :: cs.flatMap escapeLine ++ ['"']
  else if !controls && !lines && !cs.contains '\'' then
    '\'' :: cs ++ ['\'']
  else if !controls && !cs.contains '\\' && !hasTriple '"' cs then
    opening '"' ++ escapeLines 0 cs ++ ['"', '"', '"']
  else if !controls && !hasTriple '\'' cs then
    opening '\'' ++ cs ++ ['\'', '\'', '\'']
  else if lines then
    opening '"' ++ escapeLines 0 cs ++ ['"', '"', '"']
  else
    '"' :: cs.flatMap escapeLine ++ ['"']

end RoutingPlan.Toml
