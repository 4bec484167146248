import Custody.Settings.Basic

/-!
# Arguments

The command line names a task and what it is to be done to.  Three options may stand before or after
the name of the task, with their value in the next argument or after an equals sign; one that is
given in both places counts where it stands after the name.  No option may be given twice in one
place.  Two hyphens end the options.  The first argument that is out of order decides, so that
asking for help or for the version counts only if nothing before it is wrong.
-/

namespace Custody

/-- What is to be done. -/
inductive Task where
  | verify (path : String) (json : Bool)
  | inspect (path : String)
  /-- Without a path the document comes from the standard input. -/
  | hash (path : Option String) (canonical : Bool)
  deriving DecidableEq, Repr

/-- The values of the options. -/
structure Options where
  config : Option String
  logLevel : Option String
  logFormat : Option LogFormat
  deriving DecidableEq, Repr

/-- A task with its options. -/
structure Invocation where
  task : Task
  options : Options
  deriving DecidableEq, Repr

/-- Why there is no task to be done. -/
inductive Stop where
  | help
  | version
  | unknownArgument (argument : String)
  | unknownTask (name : String)
  | missingValue (option : String)
  | invalidValue (option value : String)
  | repeated (option : String)
  | missingPath
  | missingTask
  deriving DecidableEq, Repr

namespace Stop

def isWanted : Stop → Bool
  | .help => true
  | .version => true
  | _ => false

def message : Stop → String
  | .help => "help"
  | .version => "version"
  | .unknownArgument argument => s!"unexpected argument '{argument}' found"
  | .unknownTask name => s!"unrecognized subcommand '{name}'"
  | .missingValue option => s!"a value is required for '--{option}' but none was supplied"
  | .invalidValue option value => s!"invalid value '{value}' for '--{option}'"
  | .repeated option => s!"the argument '--{option}' cannot be used multiple times"
  | .missingPath => "the following required arguments were not provided: <path>"
  | .missingTask => "a subcommand is required but one was not provided"

end Stop

/-- The options that take a value. -/
inductive OptionName where
  | config
  | logLevel
  | logFormat
  deriving DecidableEq, Repr

namespace OptionName

def text : OptionName → String
  | .config => "config"
  | .logLevel => "log-level"
  | .logFormat => "log-format"

def all : List OptionName := [.config, .logLevel, .logFormat]

def ofText? (s : String) : Option OptionName := all.find? fun option => option.text = s

end OptionName

namespace Options

def none : Options := ⟨.none, .none, .none⟩

def set (o : Options) (name : OptionName) (value : String) : Except Stop Options :=
  match name with
  | .config =>
    if value.isEmpty then .error (.invalidValue name.text value)
    else if o.config.isSome then .error (.repeated name.text)
    else .ok { o with config := some value }
  | .logLevel =>
    if o.logLevel.isSome then .error (.repeated name.text)
    else .ok { o with logLevel := some value }
  | .logFormat =>
    match LogFormat.ofName? value with
    | .none => .error (.invalidValue name.text value)
    | some format =>
      if o.logFormat.isSome then .error (.repeated name.text)
      else .ok { o with logFormat := some format }

/-- The options of two places, of which the inner one counts. -/
def merge (outer inner : Options) : Options :=
  ⟨inner.config.or outer.config, inner.logLevel.or outer.logLevel,
    inner.logFormat.or outer.logFormat⟩

end Options

/-- One argument on its own. -/
inductive Argument where
  /-- The end of the options. -/
  | endOfOptions
  /-- A name after two hyphens, and a value after an equals sign. -/
  | long (name : String) (value : Option String)
  /-- Letters after one hyphen. -/
  | short (letters : List Char)
  | plain (text : String)
  deriving DecidableEq, Repr

namespace Argument

def ofText (s : String) : Argument :=
  match s.toList with
  | ['-', '-'] => .endOfOptions
  | '-' :: '-' :: rest =>
    let name := String.ofList (rest.takeWhile (· ≠ '='))
    match rest.dropWhile (· ≠ '=') with
    | [] => .long name none
    | _ :: value => .long name (some (String.ofList value))
  | ['-'] => .plain s
  | '-' :: letters => .short letters
  | _ => .plain s

/-- Whether a text can be the value of the option before it. -/
def isValue (s : String) : Bool :=
  match ofText s with
  | .plain _ => true
  | _ => false

end Argument

/-- What the arguments after the name of a task say. -/
structure Details where
  options : Options
  /-- Whether the flag of the task is set. -/
  flag : Bool
  path : Option String

namespace Details

def none : Details := ⟨.none, false, .none⟩

def setPath (d : Details) (path : String) : Except Stop Details :=
  if d.path.isSome then .error (.unknownArgument path)
  else if path.isEmpty then .error (.invalidValue "path" path)
  else .ok { d with path := some path }

def setFlag (d : Details) (name : String) : Except Stop Details :=
  if d.flag then .error (.repeated name) else .ok { d with flag := true }

def readPaths : Details → List String → Except Stop Details
  | d, [] => .ok d
  | d, path :: rest =>
    match d.setPath path with
    | .error stop => .error stop
    | .ok d => readPaths d rest

/-- Reads the arguments after the name of a task, which may have a flag. -/
def read (flagName : Option String) : Details → List String → Except Stop Details
  | d, [] => .ok d
  | d, arg :: rest =>
    match Argument.ofText arg with
    | .endOfOptions => readPaths d rest
    | .plain path =>
      match d.setPath path with
      | .error stop => .error stop
      | .ok d => read flagName d rest
    | .short letters =>
      if letters.head? = some 'h' then .error .help else .error (.unknownArgument arg)
    | .long name value =>
      if name = "help" ∧ value.isNone then .error .help
      else if flagName = some name ∧ value.isNone then
        match d.setFlag name with
        | .error stop => .error stop
        | .ok d => read flagName d rest
      else
        match OptionName.ofText? name, value, rest with
        | .none, _, _ => .error (.unknownArgument arg)
        | some option, some value, rest =>
          match d.options.set option value with
          | .error stop => .error stop
          | .ok options => read flagName { d with options } rest
        | some option, .none, value :: rest =>
          if Argument.isValue value then
            match d.options.set option value with
            | .error stop => .error stop
            | .ok options => read flagName { d with options } rest
          else .error (.missingValue option.text)
        | some option, .none, [] => .error (.missingValue option.text)

end Details

namespace Invocation

def taskNames : List String := ["verify", "inspect", "hash", "help"]

/-- Reads the task and what follows it, after options that stand before it. -/
def readTask (outer : Options) (name : String) (args : List String) : Except Stop Invocation :=
  match name with
  | "verify" =>
    match Details.read (some "json") .none args with
    | .error stop => .error stop
    | .ok ⟨_, _, none⟩ => .error .missingPath
    | .ok ⟨options, json, some path⟩ => .ok ⟨.verify path json, outer.merge options⟩
  | "inspect" =>
    match Details.read none .none args with
    | .error stop => .error stop
    | .ok ⟨_, _, none⟩ => .error .missingPath
    | .ok ⟨options, _, some path⟩ => .ok ⟨.inspect path, outer.merge options⟩
  | "hash" =>
    match Details.read (some "canonical") .none args with
    | .error stop => .error stop
    | .ok ⟨options, canonical, path⟩ => .ok ⟨.hash path canonical, outer.merge options⟩
  | "help" =>
    match args with
    | [] => .error .help
    | [topic] => if topic ∈ taskNames then .error .help else .error (.unknownTask topic)
    | _ :: argument :: _ => .error (.unknownArgument argument)
  | name => .error (.unknownTask name)

/-- Reads the arguments up to the name of the task. -/
def readFrom : Options → List String → Except Stop Invocation
  | _, [] => .error .missingTask
  | options, arg :: rest =>
    match Argument.ofText arg with
    | .endOfOptions =>
      match rest with
      | [] => .error .missingTask
      | argument :: _ => .error (.unknownArgument argument)
    | .plain name => readTask options name rest
    | .short letters =>
      if letters.head? = some 'h' then .error .help
      else if letters.head? = some 'V' then .error .version
      else .error (.unknownArgument arg)
    | .long name value =>
      if name = "help" ∧ value.isNone then .error .help
      else if name = "version" ∧ value.isNone then .error .version
      else
        match OptionName.ofText? name, value, rest with
        | none, _, _ => .error (.unknownArgument arg)
        | some option, some value, rest =>
          match options.set option value with
          | .error stop => .error stop
          | .ok options => readFrom options rest
        | some option, none, value :: rest =>
          if Argument.isValue value then
            match options.set option value with
            | .error stop => .error stop
            | .ok options => readFrom options rest
          else .error (.missingValue option.text)
        | some option, none, [] => .error (.missingValue option.text)

def ofArguments (args : List String) : Except Stop Invocation := readFrom .none args

end Invocation

end Custody
