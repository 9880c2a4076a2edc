import XmlMapping.CommandLine.Arguments
import XmlMapping.Loading
import XmlMapping.Mapping.Definitions

/-!
# The report of the command line

The report is the JSON array of the node trees of the nodes that a path selects from the document node.
The configuration is loaded first, then the bindings of the command line are added to it, then the input
is loaded, and then the path is followed; the first of these steps that fails gives the error.

A command line is answered with a report or a text on the standard output, or with an error on the standard
error and nothing on the standard output.
-/

namespace XmlMapping.CommandLine

/-- What the version is answered with. -/
def versionText : String := "unxml 0.1.0\n"

/-- What help is answered with. -/
def helpText : String :=
  "Print the node tree of an XML document as JSON\n\n" ++
    "Usage: unxml [--root <ROOT>] [--ns <NAMESPACES>]... [--config <CONFIG>] <INPUT>\n"

/-- The configuration of a file, given with what it holds, or else the empty one. -/
def configOf : Option (String × Contents) → Except Error Config
  | none => .ok .empty
  | some (file, contents) => do
    let text ← (loadText file contents).mapError Error.load
    Config.load text

/-- The name in messages of an input; a minus sign stands for the standard input. -/
def inputName (input : String) : String :=
  if input = "-" then streamName else input

/-- The mapping to the node trees that a path leads to. -/
def treesAt (root : String) : Mapping :=
  .array root .nodeTree

/-- The report on an input, given with what it holds, as the configuration file is, if there is one. -/
def report (input : String × Contents) (root : String) (namespaces : List (String × String))
    (config : Option (String × Contents)) : Except Error String := do
  let c ← configOf config
  let setup ← Setup.ofConfig (c.bindAll namespaces)
  let text ← (loadText (inputName input.1) input.2).mapError Error.load
  let d ← (loadDocument setup.mostNodes text).mapError Error.load
  let trees ← ((treesAt root).run [] d setup.bindings .root).result
  return trees.pretty ++ "\n"

/-- What a command line is answered with: what goes to the standard output and to the standard error, and the
    exit code. -/
structure Answer where
  output : String
  complaint : String
  code : UInt32
deriving DecidableEq

/-- The answer with a report, or with the error that there is instead. -/
def Answer.ofReport : Except Error String → Answer
  | .ok text => ⟨text, "", 0⟩
  | .error e => ⟨"", "Error: " ++ e.message ++ "\n", 1⟩

section
variable {m : Type → Type} [Monad m] (file : String → m Contents) (standard : m Contents)

/-- The answer to a request, given how files and the standard input are read. A minus sign as the input stands for
    the standard input. -/
def Request.answer : Request → m Answer
  | .version => return ⟨versionText, "", 0⟩
  | .help => return ⟨helpText, "", 0⟩
  | .trees input root namespaces config => do
    let config ← match config with
      | some name => (fun contents => some (name, contents)) <$> file name
      | none => pure none
    let contents ← if input = "-" then standard else file input
    return .ofReport (report (input, contents) root namespaces config)

/-- The answer to a command line. -/
def answer (arguments : List String) : m Answer :=
  match Request.ofArguments arguments with
  | .error e => return ⟨"", "error: " ++ e.message ++ "\n", 2⟩
  | .ok request => request.answer file standard

end

end XmlMapping.CommandLine
