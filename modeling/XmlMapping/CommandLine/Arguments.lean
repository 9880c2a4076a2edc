/-!
# Arguments

The command line names an input and may give a path, bindings of prefixes and a configuration. Arguments
are taken from left to right: the first one that is not allowed makes the command line wrong, and a
request for the version or for help is answered at once, whatever follows it.
-/

namespace XmlMapping.CommandLine

/-- What the command line says. -/
structure Arguments where
  input : Option String
  root : Option String
  namespaces : List (String × String)
  config : Option String
deriving DecidableEq

/-- Nothing said so far. -/
def Arguments.none : Arguments :=
  ⟨.none, .none, [], .none⟩

/-- A wrong command line. -/
inductive UsageError
  | missingInput
  | extraInput (text : String)
  | unknownOption (text : String)
  | missingValue (option : String)
  | extraValue (option : String)
  | repeated (option : String)
  | malformedBinding (text : String)
deriving DecidableEq

/-- The message of a wrong command line. -/
def UsageError.message : UsageError → String
  | .missingInput => "an input is required"
  | .extraInput text => "unexpected argument '" ++ text ++ "'"
  | .unknownOption text => "unexpected option '" ++ text ++ "'"
  | .missingValue option => "a value is required for '" ++ option ++ "'"
  | .extraValue option => "no value is allowed for '" ++ option ++ "'"
  | .repeated option => "'" ++ option ++ "' cannot be used multiple times"
  | .malformedBinding text => "Expected prefix=uri, got '" ++ text ++ "'"

/-- What is asked for: the version, help, or the node trees of an input. -/
inductive Request
  | version
  | help
  | trees (input root : String) (namespaces : List (String × String)) (config : Option String)
deriving DecidableEq

/-- The path that is taken when none is given. -/
def defaultRoot : String := "/*"

/-- The texts before and after the first equals sign of a text. -/
def splitEquals? (text : String) : Option (String × String) :=
  match text.toList.dropWhile (· != '=') with
  | [] => none
  | _ :: after => some (String.ofList (text.toList.takeWhile (· != '=')), String.ofList after)

/-- Whether an argument is an option; a minus sign alone is none. -/
def isOption (text : String) : Bool :=
  text.toList.head? == some '-' && text != "-"

namespace Arguments

/-- What is said, with an input. -/
def addInput (a : Arguments) (text : String) : Except UsageError Arguments :=
  if a.input.isSome then .error (.extraInput text) else .ok { a with input := some text }

/-- What is said, with the value of an option. -/
def addOption (a : Arguments) (option value : String) : Except UsageError Arguments :=
  if option = "--root" then
    if a.root.isSome then .error (.repeated option) else .ok { a with root := some value }
  else if option = "--ns" then
    match splitEquals? value with
    | some binding => .ok { a with namespaces := a.namespaces ++ [binding] }
    | .none => .error (.malformedBinding value)
  else if a.config.isSome then .error (.repeated option)
  else if value.isEmpty then .error (.missingValue option)
  else .ok { a with config := some value }

/-- What is said, with inputs alone. -/
def addInputs (a : Arguments) : List String → Except UsageError Arguments
  | [] => .ok a
  | text :: rest => do
    let a ← a.addInput text
    a.addInputs rest

/-- The request that the command line makes. -/
def request (a : Arguments) : Except UsageError Request :=
  match a.input with
  | some input => .ok (.trees input (a.root.getD defaultRoot) a.namespaces a.config)
  | .none => .error .missingInput

end Arguments

/-- The options that take a value. -/
def valueOptions : List String :=
  ["--root", "--ns", "--config"]

/-- An option as it is written: its name, and a value after an equals sign. -/
def splitOption (text : String) : String × Option String :=
  match splitEquals? text with
  | some (option, value) => (option, some value)
  | none => (text, none)

/-- The request of a flag, which takes no value. Of flags of one letter only the first one counts. -/
def flag? (text : String) : Option (Except UsageError Request) :=
  let (option, value) := splitOption text
  let answer (r : Request) : Except UsageError Request :=
    if value.isSome then .error (.extraValue option) else .ok r
  if option = "--version" then some (answer .version)
  else if option = "--help" then some (answer .help)
  else
    match text.toList with
    | '-' :: 'V' :: _ => some (.ok .version)
    | '-' :: 'h' :: _ => some (.ok .help)
    | _ => none

/-- The request that arguments make, after what is said already. -/
def readArguments (a : Arguments) : List String → Except UsageError Request
  | [] => a.request
  | text :: rest =>
    if text = "--" then a.addInputs rest >>= Arguments.request
    else if !isOption text then do
      let a ← a.addInput text
      readArguments a rest
    else
      match flag? text with
      | some answer => answer
      | none =>
        let (option, value) := splitOption text
        if !valueOptions.contains option then .error (.unknownOption text)
        else
          match value with
          | some value => do
            let a ← a.addOption option value
            readArguments a rest
          | none =>
            match rest with
            | [] => .error (.missingValue option)
            | value :: rest' =>
              if isOption value then .error (.missingValue option)
              else do
                let a ← a.addOption option value
                readArguments a rest'

/-- The request that a command line makes. -/
def Request.ofArguments (arguments : List String) : Except UsageError Request :=
  readArguments .none arguments

end XmlMapping.CommandLine
