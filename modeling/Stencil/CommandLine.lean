import Stencil.Rendering
import Stencil.Variables

/-!
# The command line

What the program does with its arguments, apart from reading files and printing.  Both are done by
the caller, reading in a monad of its choice; the answer is a report of what to print and the
status to end with.  If the output cannot be written, the answer is another one.
-/

namespace Stencil

/-!
## Usage
-/

def usage : String :=
  "Usage: vtl <command> [options]\n\nCommands:\n"
    ++ "  render <template> [--vars <file.json>] [--var name=value]...\n"
    ++ "                        Render a template to stdout\n"
    ++ "  check <template>      Parse a template and report its size\n\n"
    ++ "Set RUST_LOG (for example RUST_LOG=vtl_parse=trace) to see tracing output."

inductive UsageError where
  | unknownCommand (name : String)
  | checkNeedsOnePath
  | varsNeedsFile
  | varNeedsAssignment
  | unknownOption (option : String)
  | unexpectedArgument (arg : String)
  | missingTemplate
deriving DecidableEq, Repr

namespace UsageError

def message : UsageError → String
  | unknownCommand name => "unknown command `" ++ name ++ "`"
  | checkNeedsOnePath => "check takes exactly one template path"
  | varsNeedsFile => "--vars needs a file"
  | varNeedsAssignment => "--var needs name=value"
  | unknownOption option => "unknown option `" ++ option ++ "`"
  | unexpectedArgument arg => "unexpected argument `" ++ arg ++ "`"
  | missingTemplate => "render needs a template path"

end UsageError

/-!
## Commands
-/

structure RenderOptions where
  template : String
  varsFile : Option String
  assignments : List String
deriving DecidableEq, Repr

namespace RenderOptions

def isOption (arg : String) : Bool :=
  ['-', '-'].isPrefixOf arg.toList

/-- Goes through arguments, given what has been seen so far, assignments newest first. -/
def scan (template varsFile : Option String) (assignments : List String) :
    List String → Except UsageError RenderOptions
  | [] =>
      match template with
      | some path => .ok ⟨path, varsFile, assignments.reverse⟩
      | none => .error .missingTemplate
  | arg :: rest =>
      if arg = "--vars" then
        match rest with
        | file :: rest => scan template (some file) assignments rest
        | [] => .error .varsNeedsFile
      else if arg = "--var" then
        match rest with
        | assignment :: rest => scan template varsFile (assignment :: assignments) rest
        | [] => .error .varNeedsAssignment
      else if isOption arg then .error (.unknownOption arg)
      else if template.isNone then scan (some arg) varsFile assignments rest
      else .error (.unexpectedArgument arg)

def ofArgs (args : List String) : Except UsageError RenderOptions :=
  scan none none [] args

end RenderOptions

inductive Command where
  | none
  | help
  | render (options : RenderOptions)
  | check (path : String)
deriving DecidableEq, Repr

namespace Command

def isHelp (name : String) : Bool :=
  name = "help" || name = "--help" || name = "-h"

def ofArgs : List String → Except UsageError Command
  | [] => .ok none
  | name :: args =>
      if name = "render" then (RenderOptions.ofArgs args).map render
      else if name = "check" then
        match args with
        | [path] => .ok (check path)
        | _ => .error .checkNeedsOnePath
      else if isHelp name then .ok help
      else .error (.unknownCommand name)

end Command

/-!
## Failures
-/

/-- Why a file could not be read or the output not be written; `other` carries the words of the
system. -/
inductive FileError where
  | notFound
  | notDirectory
  | isDirectory
  | nameTooLong
  | notText
  | other (message : String)
deriving DecidableEq, Repr

namespace FileError

def message : FileError → String
  | notFound => "No such file or directory (os error 2)"
  | notDirectory => "Not a directory (os error 20)"
  | isDirectory => "Is a directory (os error 21)"
  | nameTooLong => "File name too long (os error 36)"
  | notText => "stream did not contain valid UTF-8"
  | other message => message

end FileError

inductive CommandError where
  | read (path : String) (error : FileError)
  | write (error : FileError)
  | badVariables (origin : String) (error : VariableError)
  | template (error : TemplateError)

namespace CommandError

def message : CommandError → String
  | read path error => "cannot read " ++ path ++ ": " ++ error.message
  | write error => "cannot write output: " ++ error.message
  | badVariables origin error => origin ++ ": " ++ error.message
  | template error => error.message

end CommandError

/-!
## Running a command
-/

inductive Answer where
  | usage
  | help
  | misuse (error : UsageError)
  | failure (error : CommandError)
  | rendered (output : String)
  | checked (count : Nat)

namespace Command

variable {m : Type → Type} [Monad m]

def withFile (read : String → m (Except FileError String)) (path : String)
    (next : String → m (Except CommandError α)) : m (Except CommandError α) := do
  match ← read path with
  | .ok text => next text
  | .error error => return .error (.read path error)

def assign (bindings : Entries Value) :
    List String → Except CommandError (Entries Value)
  | [] => .ok bindings
  | arg :: rest =>
      match Variables.ofAssignment arg with
      | .ok (name, value) => assign (Entries.insert name value bindings) rest
      | .error error => .error (.badVariables "--var" error)

def variablesOfFile (lib : Json.Library) (path text : String) :
    Except CommandError (Entries Value) :=
  (Variables.ofText lib text).mapError (.badVariables path)

def renderWith (path text : String) (fileVariables : Except CommandError (Entries Value))
    (assignments : List String) : Except CommandError String := do
  let bindings ← assign (← fileVariables) assignments
  (Template.render path text bindings).mapError .template

def runRender (lib : Json.Library) (read : String → m (Except FileError String))
    (options : RenderOptions) : m (Except CommandError String) :=
  withFile read options.template fun text =>
    match options.varsFile with
    | .none => return renderWith options.template text (.ok []) options.assignments
    | .some path =>
        withFile read path fun json =>
          let fileVariables := variablesOfFile lib path json
          return renderWith options.template text fileVariables options.assignments

def runCheck (read : String → m (Except FileError String)) (path : String) :
    m (Except CommandError Nat) :=
  withFile read path fun text =>
    match Template.parse path text with
    | .ok template => return .ok template.length
    | .error error => return .error (.template (.parse error))

def run (lib : Json.Library) (read : String → m (Except FileError String)) : Command → m Answer
  | none => return .usage
  | help => return .help
  | render options => do
      match ← runRender lib read options with
      | .ok output => return .rendered output
      | .error error => return .failure error
  | check path => do
      match ← runCheck read path with
      | .ok count => return .checked count
      | .error error => return .failure error

def answer (lib : Json.Library) (read : String → m (Except FileError String))
    (args : List String) : m Answer :=
  match ofArgs args with
  | .ok command => command.run lib read
  | .error error => return .misuse error

end Command

/-!
## Reports
-/

structure Report where
  status : Nat
  stdout : String
  stderr : String
deriving DecidableEq, Repr

namespace Answer

/-- The answer after an attempt to write the output of a template. -/
def afterWriting (written : Except FileError Unit) : Answer → Answer
  | rendered output =>
      match written with
      | .ok () => rendered output
      | .error error => failure (.write error)
  | answer => answer

/-- What to print; `elapsed` is the text of the time that parsing took. -/
def report (elapsed : String) : Answer → Report
  | usage => ⟨2, "", Stencil.usage ++ "\n"⟩
  | help => ⟨0, Stencil.usage ++ "\n", ""⟩
  | misuse error => ⟨2, "", "error: " ++ error.message ++ "\n\n" ++ Stencil.usage ++ "\n"⟩
  | failure error => ⟨1, "", "error: " ++ error.message ++ "\n"⟩
  | rendered output => ⟨0, output, ""⟩
  | checked count =>
      ⟨0, "ok (" ++ count.repr ++ " top-level nodes, parsed in " ++ elapsed ++ ")\n", ""⟩

end Answer

end Stencil
