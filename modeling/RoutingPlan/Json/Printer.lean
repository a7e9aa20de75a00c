import RoutingPlan.Json.Value

-- The texts of a JSON value: `render` writes it on one line, `renderPretty` with two spaces for
-- each level. Quoted text escapes what JSON demands and nothing else.

namespace RoutingPlan.Json

def hexDigit (n : Nat) : Char :=
  if n < 10 then Char.ofNat ('0'.toNat + n) else Char.ofNat ('a'.toNat + n - 10)

-- A character inside quotes: the quote, the backslash and the control characters are escaped, by a
-- letter where there is one for them.
def escape (c : Char) : List Char :=
  if c = '"' then ['\\', '"']
  else if c = '\\' then ['\\', '\\']
  else if c = '\n' then ['\\', 'n']
  else if c = '\r' then ['\\', 'r']
  else if c = '\t' then ['\\', 't']
  else if c = '\x08' then ['\\', 'b']
  else if c = '\x0c' then ['\\', 'f']
  else if c.toNat < 0x20 then
    ['\\', 'u', '0', '0', hexDigit (c.toNat / 16), hexDigit (c.toNat % 16)]
  else [c]

def quote (s : String) : List Char :=
  '"' :: s.toList.flatMap escape ++ ['"']

def renderBool (b : Bool) : List Char :=
  (if b then "true" else "false").toList

namespace Value

mutual

def render : Value → List Char
  | null => "null".toList
  | bool b => renderBool b
  | number n => n.render
  | string s => quote s
  | array vs => '[' :: renderElements vs ++ [']']
  | object ms => '{' :: renderMembers ms ++ ['}']

def renderElements : List Value → List Char
  | [] => []
  | [v] => render v
  | v :: w :: vs => render v ++ ',' :: renderElements (w :: vs)

def renderMembers : List (String × Value) → List Char
  | [] => []
  | [(k, v)] => quote k ++ ':' :: render v
  | (k, v) :: m :: ms => quote k ++ ':' :: render v ++ ',' :: renderMembers (m :: ms)

end

-- A new line, and two spaces for each of `n` levels.
def indent (n : Nat) : List Char :=
  '\n' :: List.replicate (2 * n) ' '

mutual

-- The text of a value at level `n`; an empty array or object stays on its line.
def renderPretty (n : Nat) : Value → List Char
  | null => "null".toList
  | bool b => renderBool b
  | number x => x.render
  | string s => quote s
  | array [] => ['[', ']']
  | array (v :: vs) => '[' :: renderPrettyElements (n + 1) (v :: vs) ++ indent n ++ [']']
  | object [] => ['{', '}']
  | object (m :: ms) => '{' :: renderPrettyMembers (n + 1) (m :: ms) ++ indent n ++ ['}']

def renderPrettyElements (n : Nat) : List Value → List Char
  | [] => []
  | [v] => indent n ++ renderPretty n v
  | v :: w :: vs => indent n ++ renderPretty n v ++ ',' :: renderPrettyElements n (w :: vs)

def renderPrettyMembers (n : Nat) : List (String × Value) → List Char
  | [] => []
  | [(k, v)] => indent n ++ quote k ++ ':' :: ' ' :: renderPretty n v
  | (k, v) :: m :: ms =>
    indent n ++ quote k ++ ':' :: ' ' :: renderPretty n v ++ ',' :: renderPrettyMembers n (m :: ms)

end

def compact (v : Value) : String :=
  String.ofList v.render

def pretty (v : Value) : String :=
  String.ofList (v.renderPretty 0)

-- A value as plain text: a string stands for itself, everything else for its JSON.
def text : Value → String
  | string s => s
  | v => v.compact

end Value
end RoutingPlan.Json
