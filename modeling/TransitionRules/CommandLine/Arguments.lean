/-
TransitionRules/CommandLine/Arguments.lean

The arguments of the command line.  There are two commands: `apply` folds patches into an object,
`check` lists the rules of a file.  Every option stands at most once on its level, and an option
that is not given may come from a variable of the environment.
-/

namespace TransitionRules.CommandLine

/-- The form of the output. -/
inductive Format where
  | text
  | json
  deriving DecidableEq, Repr

/-- The form of a name. -/
def Format.ofName? : String → Option Format
  | "text" => some .text
  | "json" => some .json
  | _ => none

/-- Where rules come from. -/
structure RuleSource where
  file : String
  /-- Leave out what makes no sense. -/
  warn : Bool
  deriving DecidableEq, Repr

/-- What is to be done. -/
inductive Command where
  | apply (rules : RuleSource) (limit : Option Nat) (trace : Bool) (base : String)
      (patches : List String)
  | check (rules : RuleSource)
  deriving DecidableEq, Repr

/-- What the command line asks for. -/
inductive Request where
  | version
  | help
  | run (format : Format) (command : Command)
  deriving DecidableEq, Repr

/-- The variables of the environment that stand for options. -/
structure Variables where
  rules : Option String := none
  limit : Option String := none

/-- The levels of the command line. -/
inductive Level where
  | top
  | apply
  | check
  deriving DecidableEq, Repr

/-- What has been given on a level. -/
structure Given where
  format : Option Format := none
  rules : Option String := none
  limit : Option Nat := none
  warn : Bool := false
  trace : Bool := false
  /-- The arguments that are no options. -/
  operands : List String := []

/-! ### Values -/

/-- A count below `2 ^ 64`, with or without a plus sign. -/
def count? (text : String) : Option Nat :=
  let digits :=
    match text.toList with
    | '+' :: rest => rest
    | rest => rest
  if digits.isEmpty || !digits.all Char.isDigit then none
  else
    let n := digits.foldl (fun n c => 10 * n + (c.toNat - 48)) 0
    if n < 0x10000000000000000 then some n else none

/-- The name of a file. -/
def file? (text : String) : Option String := if text.isEmpty then none else some text

/-- Whether an argument can be a value or an operand: it does not look like an option. -/
def isOperand (argument : String) : Bool := !argument.startsWith "-" || argument = "-"

/-! ### Options -/

/-- Sets something that may be given once. -/
def once {α : Type} (old new : Option α) : Option (Option α) :=
  match old, new with
  | none, some new => some (some new)
  | _, _ => none

/-- An option with a value. -/
def setOption (level : Level) (given : Given) (name value : String) : Option Given :=
  match level, name with
  | _, "--format" => do return { given with format := ← once given.format (Format.ofName? value) }
  | .apply, "--rules" | .check, "--rules" => do
    return { given with rules := ← once given.rules (file? value) }
  | .apply, "--max-iterations" => do
    return { given with limit := ← once given.limit (count? value) }
  | _, _ => none

/-- Whether an option has a value. -/
def hasValue (level : Level) (name : String) : Bool :=
  name = "--format" || (level ≠ .top && name = "--rules") ||
    (level = .apply && name = "--max-iterations")

/-- An option without a value. -/
def setFlag (level : Level) (given : Given) (name : String) : Option Given :=
  match level, name with
  | .apply, "--warn" | .check, "--warn" =>
    if given.warn then none else some { given with warn := true }
  | .apply, "--trace" => if given.trace then none else some { given with trace := true }
  | _, _ => none

/-- One more operand. -/
def addOperand (level : Level) (given : Given) (operand : String) : Option Given :=
  if level = .apply then do
    return { given with operands := given.operands ++ [← file? operand] }
  else none

/-- An option whose value follows an equals sign. -/
def splitOption (argument : String) : Option (String × String) :=
  let chars := argument.toList
  match chars.dropWhile (· ≠ '=') with
  | _ :: value => some (String.ofList (chars.takeWhile (· ≠ '=')), String.ofList value)
  | [] => none

/-! ### Levels -/

/-- What the arguments of a level come to. -/
inductive Reading where
  | request (request : Request)
  /-- The level ends with a command, before its arguments. -/
  | command (given : Given) (level : Level) (rest : List String)
  | finished (given : Given)

/-- What the name of a command begins. -/
def readCommand (given : Given) (name : String) (rest : List String) : Option Reading :=
  match name, rest with
  | "apply", rest => some (.command given .apply rest)
  | "check", rest => some (.command given .check rest)
  | "help", [] => some (.request .help)
  | "help", [topic] =>
    if ["apply", "check", "help"].contains topic then some (.request .help) else none
  | _, _ => none

/-- Reads the arguments of a level. -/
def readLevel (level : Level) (given : Given) : List String → Option Reading
  | [] => some (.finished given)
  | "--" :: rest => do
    return .finished (← rest.foldlM (addOperand level) given)
  | argument :: rest =>
    if argument = "--help" || argument = "-h" then some (.request .help)
    else if level = .top && (argument = "--version" || argument = "-V") then
      some (.request .version)
    else if isOperand argument then
      if level = .top then readCommand given argument rest
      else do readLevel level (← addOperand level given argument) rest
    else
      match splitOption argument with
      | some (name, value) => do readLevel level (← setOption level given name value) rest
      | none =>
        if hasValue level argument then
          match rest with
          | value :: rest =>
            if isOperand value then do readLevel level (← setOption level given argument value) rest
            else none
          | [] => none
        else do readLevel level (← setFlag level given argument) rest

/-! ### Requests -/

/-- The file of rules, from an option or from the environment. -/
def ruleSource (vars : Variables) (given : Given) : Option RuleSource := do
  let file ←
    match given.rules with
    | some file => some file
    | none => vars.rules.bind file?
  return ⟨file, given.warn⟩

/-- The limit of passes, from an option or from the environment. -/
def passLimit (vars : Variables) (given : Given) : Option (Option Nat) :=
  match given.limit, vars.limit with
  | some limit, _ => some (some limit)
  | none, some text => (count? text).map some
  | none, none => some none

/-- The command of a level. -/
def commandOf (vars : Variables) (level : Level) (given : Given) : Option Command := do
  let rules ← ruleSource vars given
  match level, given.operands with
  | .apply, base :: patches =>
    return .apply rules (← passLimit vars given) given.trace base patches
  | .check, [] => return .check rules
  | _, _ => none

/-- The request of a command line; `none` for one that is not understood.  A form of the output
that is given for the command counts more than one given before it. -/
def request? (vars : Variables) (arguments : List String) : Option Request := do
  match ← readLevel .top {} arguments with
  | .request request => return request
  | .finished _ => none
  | .command outer level rest =>
    match ← readLevel level {} rest with
    | .request request => return request
    | .command _ _ _ => none
    | .finished given =>
      let format := (given.format.or outer.format).getD .text
      return .run format (← commandOf vars level given)

end TransitionRules.CommandLine
