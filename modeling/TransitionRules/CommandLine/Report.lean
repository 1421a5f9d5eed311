/-
TransitionRules/CommandLine/Report.lean

What a command prints, and how it fails.  The files that a command names are handed in, so that
nothing here reads any.
-/
import TransitionRules.CommandLine.Arguments
import TransitionRules.Expr.ArraySyntax
import TransitionRules.Json.Reader
import TransitionRules.Rule.Compile
import TransitionRules.RuleFile.Reader
import TransitionRules.Run.Reducer

namespace TransitionRules.CommandLine

/-- The texts of the files that are there. -/
abbrev Files := String → Option String

/-- What a command leaves behind. -/
structure Output where
  code : Nat
  stdout : String := ""
  stderr : String := ""
  deriving DecidableEq, Repr

/-- Why a command fails. -/
inductive Failure where
  /-- A failure in words, with the cause if there is one. -/
  | message (text : String) (cause : Option String)
  | abort (reason : FoldAbort)

/-- A failure of the rules. -/
def Failure.ofError (e : RuleError) : Failure := .message e.message none

/-- The lines of a cause, each indented. -/
def indented (text : String) : String :=
  String.ofList (text.toList.flatMap fun c =>
    if c = '\n' then ['\n', ' ', ' ', ' ', ' '] else [c])

/-- The output of a failure. -/
def Failure.output : Failure → Output
  | .message text none => ⟨1, "", "Error: " ++ text ++ "\n"⟩
  | .message text (some cause) =>
    ⟨1, "", "Error: " ++ text ++ "\n\nCaused by:\n    " ++ indented cause ++ "\n"⟩
  | .abort reason => ⟨101, "", reason.message ++ "\n"⟩

/-! ### Files -/

/-- The extensions of rule files. -/
def extensions : List String := ["yaml", "yml", "json"]

/-- What follows the last point of a file's name; a point in front does not count. -/
def extensionOf (file : String) : String :=
  let name := (file.toList.reverse.dropWhile (· = '/')).takeWhile (· ≠ '/')
  match name.dropWhile (· ≠ '.') with
  | _ :: _ :: _ =>
    if name = ['.', '.'] then "" else String.ofList (name.takeWhile (· ≠ '.')).reverse
  | _ => ""

/-- The rules of a file. -/
def loadRules (files : Files) (source : RuleSource) : Except Failure (List Rule) :=
  let file := source.file
  let extension := extensionOf file
  if !extensions.contains extension then
    .error (.message ("unsupported rule file extension '" ++ extension ++ "' for " ++ file ++
      " (expected one of: " ++ ", ".intercalate extensions ++ ")") none)
  else
    let declarations : Except SyntaxFault (List Declaration) :=
      match files file with
      | none => .error (.noSuchFile file)
      | some text => RuleFile.read (some file) text
    match declarations with
    | .error fault =>
      .error (.message ("failed to load rules from " ++ file) (some (RuleError.parse fault).message))
    | .ok declarations =>
      match Declaration.compileAll { warn := source.warn, frontend := some Expr.ofArrays }
          declarations with
      | .ok rules => .ok rules
      | .error (.abort reason) => .error (.abort reason)
      | .error (.error e) =>
        .error (.message ("failed to compile rules from " ++ file) (some e.message))

/-- The kind of a document, with its article. -/
def kindPhrase : Json → String
  | .null => "null"
  | .bool _ => "a boolean"
  | .number _ => "a number"
  | .string _ => "a string"
  | .array _ => "an array"
  | .object _ => "an object"

/-- The object of a file. -/
def loadObject (files : Files) (file : String) : Except Failure Object :=
  match files file with
  | none =>
    .error (.message ("cannot read " ++ file) (some "No such file or directory (os error 2)"))
  | some text =>
    match Json.read text with
    | .error fault => .error (.message ("invalid JSON in " ++ file) (some fault.message))
    | .ok (.object object) => .ok object
    | .ok other =>
      .error (.message (file ++ " must contain a JSON object, got " ++ kindPhrase other) none)

/-! ### Applying -/

/-- The names of the rules that matched in a pass, or a dash. -/
def matchedText (names : List String) : String :=
  if names.isEmpty then "-" else ", ".intercalate names

/-- The record of a run as lines of text. -/
def traceText (number : Nat) (trace : Trace) : String :=
  "run " ++ toString number ++ ": " ++ toString trace.iterations ++ " pass(es)\n" ++
    String.join (trace.passes.map fun pass =>
      "  pass " ++ toString pass.pass ++ ": " ++ matchedText pass.matched ++ "\n") ++
    String.join (trace.retired.map fun retired =>
      "  retired " ++ retired.rule ++ " in pass " ++ toString retired.pass ++ "\n")

/-- The records of runs, the first of which has this number. -/
def tracesText (number : Nat) : List Trace → String
  | [] => ""
  | trace :: rest => traceText number trace ++ tracesText (number + 1) rest

/-- An object and the records of the runs that led to it. -/
def tracedText (format : Format) (object : Object) (traces : List Trace) : String :=
  match format with
  | .text => (Json.object object).pretty ++ "\n" ++ tracesText 1 traces
  | .json =>
    (OrderedJson.record [("result", .json (.object object)),
      ("traces", .array (traces.map Trace.document))]).sorted.pretty ++ "\n"

/-- Folds the patches of files into the object of a file. -/
def applyText (files : Files) (format : Format) (rules : RuleSource) (limit : Option Nat)
    (trace : Bool) (base : String) (patches : List String) :
    Except Failure (Budgeted String) := do
  let rules ← loadRules files rules
  let object ← loadObject files base
  let changes ← patches.mapM (loadObject files)
  let reducer : Reducer := ⟨rules, limit⟩
  if trace then
    return do
      let (final, traces) ← reducer.reduceTraced object changes
      return tracedText format final traces
  else
    return do
      let final ← reducer.reduce object changes
      return (Json.object final).pretty ++ "\n"

/-! ### Checking -/

/-- The word for a matcher. -/
def matcherWord : Matcher → String
  | .constant true => "always"
  | .constant false => "never"
  | .predicate _ => "predicate"

/-- A rule as a line of text. -/
def ruleLine (rule : Rule) : String :=
  let word := matcherWord rule.matcher
  "  [" ++ word ++ String.ofList (List.replicate (9 - word.length) ' ') ++ "] " ++ rule.name ++
    " " ++ rule.description.getD "" ++ "\n"

/-- A rule as a document. -/
def ruleDocument (rule : Rule) : OrderedJson :=
  .record ([("name", .string rule.name)] ++
    (match rule.description with
      | some description => [("description", .string description)]
      | none => []) ++
    [("matcher", .string (matcherWord rule.matcher))])

/-- The rules of a file, listed. -/
def checkText (files : Files) (format : Format) (rules : RuleSource) :
    Except Failure String := do
  let rules ← loadRules files rules
  match format with
  | .text =>
    return toString rules.length ++ " rules compiled:\n" ++ String.join (rules.map ruleLine)
  | .json => return (OrderedJson.array (rules.map ruleDocument)).pretty ++ "\n"

/-! ### Requests -/

/-- The name and the version of the program. -/
def versionText : String := "settle 0.1.0\n"

/-- How the program is called. -/
def helpText : String :=
  "Usage: settle [--format <text|json>] apply --rules <FILE> [--warn] [--max-iterations <N>] " ++
    "[--trace] <BASE> [PATCHES]...\n       settle [--format <text|json>] check --rules <FILE> " ++
    "[--warn]\n"

/-- What a computation prints within a budget.  One that does not end within it prints nothing. -/
def outputWithin (budget : Nat) (text : Budgeted String) : Output :=
  match text.within budget with
  | some (.ok text) => ⟨0, text, ""⟩
  | some (.error e) => (Failure.ofError e).output
  | none => ⟨1, "", ""⟩

/-- The output of a request. -/
def respond (files : Files) (budget : Nat) : Request → Output
  | .version => ⟨0, versionText, ""⟩
  | .help => ⟨0, helpText, ""⟩
  | .run format (.apply rules limit trace base patches) =>
    match applyText files format rules limit trace base patches with
    | .ok text => outputWithin budget text
    | .error failure => failure.output
  | .run format (.check rules) =>
    match checkText files format rules with
    | .ok text => ⟨0, text, ""⟩
    | .error failure => failure.output

/-- The output of a command line. -/
def run (files : Files) (budget : Nat) (vars : Variables) (arguments : List String) :
    Output :=
  match request? vars arguments with
  | some request => respond files budget request
  | none => ⟨2, "", helpText⟩

/-- The files that a request names. -/
def Request.files : Request → List String
  | .version | .help => []
  | .run _ (.apply rules _ _ base patches) => rules.file :: base :: patches
  | .run _ (.check rules) => [rules.file]

end TransitionRules.CommandLine
