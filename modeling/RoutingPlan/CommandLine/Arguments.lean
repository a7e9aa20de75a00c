-- The arguments of the command line. Options stand before the command. An option whose value stands
-- apart is only judged once the next argument has been looked at, so that a call for help after it
-- comes first. `Request.ofArguments` is the whole way.

namespace RoutingPlan.CommandLine

inductive Shell where
  | bash
  | elvish
  | fish
  | powershell
  | zsh
deriving DecidableEq

namespace Shell

def name : Shell → String
  | bash => "bash"
  | elvish => "elvish"
  | fish => "fish"
  | powershell => "powershell"
  | zsh => "zsh"

def ofName? (s : String) : Option Shell :=
  [bash, elvish, fish, powershell, zsh].find? (·.name == s)

end Shell

inductive Command where
  | chat
  | run (words : List String) (trace : Bool)
  | display
  | validate
  | completions (shell : Shell)
deriving DecidableEq

structure Options where
  -- The file of the settings.
  config : Option String := none
  -- The file of the plan, in place of the one in the settings.
  plan : Option String := none
deriving DecidableEq

-- What the arguments ask for.
inductive Request where
  | misuse
  | help
  | version
  | command (options : Options) (command : Command)
deriving DecidableEq

-- An argument by its look. A single hyphen is an ordinary word.
inductive Argument where
  | word
  | long (name : String) (value : Option String)
  | short (letter : Char) (rest : List Char)
  -- Two hyphens: everything after them is a word.
  | escape

namespace Argument

def ofString (s : String) : Argument :=
  match s.toList with
  | ['-', '-'] => escape
  | '-' :: '-' :: cs =>
    let value := (cs.dropWhile (· ≠ '=')).tail
    long (String.ofList (cs.takeWhile (· ≠ '=')))
      (if cs.contains '=' then some (String.ofList value) else none)
  | '-' :: c :: cs => short c cs
  | _ => word

def isHelp : Argument → Bool
  | long "help" none | short 'h' _ => true
  | _ => false

def isWord : Argument → Bool
  | word => true
  | _ => false

end Argument

-- What the arguments after a command come to.
inductive Request.Tail where
  | misuse
  | help
  | command (c : Command)

namespace Request.Tail

-- A command that takes no arguments.
def bare (c : Command) : List String → Tail
  | [] => command c
  | a :: rest =>
    let arg := Argument.ofString a
    match arg with
    | .escape => if rest.isEmpty then command c else misuse
    | _ => if arg.isHelp then help else misuse

-- From the first word on everything is input; two hyphens before it are dropped.
def run (trace : Bool) : List String → Tail
  | [] => command (.run [] trace)
  | a :: rest =>
    let arg := Argument.ofString a
    match arg with
    | .escape => command (.run rest trace)
    | .word => command (.run (a :: rest) trace)
    | .long "trace" none => if trace then misuse else run true rest
    | _ => if arg.isHelp then help else misuse

def shell (s : String) (rest : List String) : Tail :=
  match Shell.ofName? s with
  | some sh => bare (.completions sh) rest
  | none => misuse

-- Exactly one word, the name of a shell.
def completions : List String → Tail
  | [] => misuse
  | a :: rest =>
    let arg := Argument.ofString a
    match arg, rest with
    | .word, _ => shell a rest
    | .escape, [s] => shell s []
    | _, _ => if arg.isHelp then help else misuse

-- The command of a name and the arguments after it.
def ofCommand : String → List String → Tail
  | "chat", rest => bare .chat rest
  | "run", rest => run false rest
  | "show", rest => bare .display rest
  | "validate", rest => bare .validate rest
  | "completions", rest => completions rest
  | _, _ => misuse

-- Help on one command at most.
def helpOn : List String → Tail
  | [] => help
  | [name] =>
    if ["chat", "run", "show", "validate", "completions", "help"].contains name then help
    else misuse
  | _ => misuse

end Request.Tail

-- The options that take a value.
inductive Options.Key where
  | config
  | plan

namespace Options

def Key.ofName? : String → Option Key
  | "config" => some .config
  | "plan" => some .plan
  | _ => none

def Key.ofLetter? : Char → Option Key
  | 'c' => some .config
  | 'p' => some .plan
  | _ => none

def get? (o : Options) : Key → Option String
  | .config => o.config
  | .plan => o.plan

-- Takes a value for an option, which must not be empty and not the second one.
def give (o : Options) (key : Key) (value : String) : Option Options :=
  if value.isEmpty || (o.get? key).isSome then none
  else
    match key with
    | .config => some { o with config := some value }
    | .plan => some { o with plan := some value }

-- Takes the value that stood apart, if there was one.
def settle (o : Options) : Option (Key × String) → Option Options
  | none => some o
  | some (key, value) => o.give key value

end Options

namespace Request

-- The request for a command once the options before it are settled. A call for help needs no good
-- options.
def afterOptions (options : Option Options) : Tail → Request
  | .misuse => misuse
  | .help => help
  | .command c =>
    match options with
    | some o => command o c
    | none => misuse

-- Reads on with some options read already, and perhaps with one that has not been settled.
def read (o : Options) (pending : Option (Options.Key × String)) : List String → Request
  | [] => afterOptions (o.settle pending) (.command .chat)
  | a :: rest =>
    match Argument.ofString a with
    | .word =>
      afterOptions (o.settle pending)
        (if a = "help" then Tail.helpOn rest else Tail.ofCommand a rest)
    | .escape => afterOptions (o.settle pending) (Tail.bare .chat ("--" :: rest))
    | .long name value =>
      match o.settle pending with
      | none => misuse
      | some o =>
        match Options.Key.ofName? name, value, rest with
        | some key, some value, rest =>
          match o.give key value with
          | some o => read o none rest
          | none => misuse
        | some key, none, value :: rest =>
          if (Argument.ofString value).isWord then read o (some (key, value)) rest else misuse
        | some _, none, [] => misuse
        | none, none, _ =>
          if name = "help" then help else if name = "version" then version else misuse
        | none, some _, _ => misuse
    | .short letter letters =>
      match o.settle pending with
      | none => misuse
      | some o =>
        match Options.Key.ofLetter? letter, letters, rest with
        | some key, [], value :: rest =>
          if (Argument.ofString value).isWord then read o (some (key, value)) rest else misuse
        | some _, [], [] => misuse
        | some key, c :: cs, rest =>
          match o.give key (String.ofList (if c = '=' then cs else c :: cs)) with
          | some o => read o none rest
          | none => misuse
        | none, _, _ => if letter = 'h' then help else if letter = 'V' then version else misuse

def ofArguments (args : List String) : Request :=
  read {} none args

end Request
end RoutingPlan.CommandLine
