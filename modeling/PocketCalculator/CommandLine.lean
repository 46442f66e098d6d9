import PocketCalculator.Host.Folder
import PocketCalculator.Host.LogFilter

/-!
# The command line

What the program is asked to do by its arguments, and what it then does, as a function of the files
it finds and of its standard input. An option takes its value from the next argument or has it
attached; it may be given once. A flag that asks for help or for the version is answered as soon as
it is met.
-/

namespace PocketCalculator.CommandLine

open Host (Content Machine)

/-! ## Options -/

inductive Name where
  | settings
  | mode
  | width
  | script
  | maxSteps
  | logLevel
  deriving DecidableEq, Repr

namespace Name

def all : List Name :=
  [settings, mode, width, script, maxSteps, logLevel]

/-- The long form of an option, after two hyphens. -/
def long : Name → String
  | settings => "settings"
  | mode => "mode"
  | width => "width"
  | script => "script"
  | maxSteps => "max-steps"
  | logLevel => "log-level"

def ofLong? (name : String) : Option Name :=
  all.find? (·.long = name)

/-- The option with a letter after one hyphen. -/
def ofShort? : Char → Option Name
  | 'm' => some mode
  | 'w' => some width
  | 's' => some script
  | _ => none

end Name

/-- The values of the options that are given. -/
structure Options where
  settings : Option String
  mode : Option Mode
  width : Option Nat
  script : Option String
  maxSteps : Option Nat
  logLevel : Option String
  deriving DecidableEq, Repr

inductive UsageError where
  | unexpectedArgument (argument : String)
  | missingValue (name : Name)
  | repeated (name : Name)
  | invalidValue (name : Name) (value : String)
  deriving DecidableEq, Repr

def UsageError.message : UsageError → String
  | unexpectedArgument argument => "error: unexpected argument '" ++ argument ++ "' found"
  | missingValue name => "error: a value is required for '--" ++ name.long ++ "'"
  | repeated name => "error: '--" ++ name.long ++ "' cannot be used multiple times"
  | invalidValue name value =>
    "error: invalid value '" ++ value ++ "' for '--" ++ name.long ++ "'"

inductive Request where
  | help
  | version
  | start (options : Options)
  deriving DecidableEq, Repr

/-! ## Values -/

def countLimit : Nat :=
  Nat.pow 2 64 - 1

/-- A count in decimal digits, perhaps behind a plus sign. -/
def countOfText? (text : List Char) : Option Nat :=
  let digits := if text.head? = some '+' then text.drop 1 else text
  if !digits.isEmpty && digits.all Char.isDigit then
    let n := Nat.ofDigitChars 10 digits 0
    if n ≤ countLimit then some n else none
  else none

/-- The name of a file, which is not empty. -/
def pathOfText? (text : List Char) : Option String :=
  if text.isEmpty then none else some (String.ofList text)

namespace Options

def none : Options :=
  ⟨.none, .none, .none, .none, .none, .none⟩

def isGiven (o : Options) : Name → Bool
  | .settings => o.settings.isSome
  | .mode => o.mode.isSome
  | .width => o.width.isSome
  | .script => o.script.isSome
  | .maxSteps => o.maxSteps.isSome
  | .logLevel => o.logLevel.isSome

/-- The options with the value of another, if the value makes sense. -/
def store? (o : Options) (name : Name) (value : List Char) : Option Options :=
  match name with
  | .settings => (pathOfText? value).map fun v => { o with settings := some v }
  | .mode => (Mode.ofName? (String.ofList value)).map fun v => { o with mode := some v }
  | .width => (countOfText? value).map fun v => { o with width := some v }
  | .script => (pathOfText? value).map fun v => { o with script := some v }
  | .maxSteps => (countOfText? value).map fun v => { o with maxSteps := some v }
  | .logLevel => some { o with logLevel := some (String.ofList value) }

def store (o : Options) (name : Name) (value : List Char) : Except UsageError Options :=
  match o.store? name value with
  -- A value that makes no sense is the error even of an option that is repeated.
  | some next => if o.isGiven name then .error (.repeated name) else .ok next
  | .none => .error (.invalidValue name (String.ofList value))

end Options

/-! ## Arguments -/

inductive Progress where
  | reading (options : Options)
  /-- An option waits for its value. -/
  | awaiting (options : Options) (name : Name)
  /-- After two hyphens there are no options any more. -/
  | closed (options : Options)
  /-- A flag has been met that is answered at once. -/
  | answered (request : Request)
  deriving DecidableEq, Repr

/-- Reads an option that starts with two hyphens, from the text after them. -/
def takeLong (options : Options) (argument : List Char) : Except UsageError Progress :=
  let name := String.ofList (argument.takeWhile (· != '='))
  let unexpected := .error (.unexpectedArgument (String.ofList ('-' :: '-' :: argument)))
  match Name.ofLong? name, argument.dropWhile (· != '=') with
  | some name, [] => .ok (.awaiting options name)
  | some name, _ :: value => (options.store name value).map .reading
  | .none, [] =>
    if name = "help" then .ok (.answered .help)
    else if name = "version" then .ok (.answered .version)
    else unexpected
  | .none, _ => unexpected

/-- Reads an option that starts with one hyphen, from the text after it. -/
def takeShort (options : Options) (argument : List Char) : Except UsageError Progress :=
  match argument with
  | 'h' :: _ => .ok (.answered .help)
  | 'V' :: _ => .ok (.answered .version)
  | letter :: value =>
    match Name.ofShort? letter, value with
    | some name, [] => .ok (.awaiting options name)
    | some name, '=' :: value => (options.store name value).map .reading
    | some name, value => (options.store name value).map .reading
    | .none, _ => .error (.unexpectedArgument (String.ofList ['-', letter]))
  | [] => .error (.unexpectedArgument "-")

/-- Reads an argument where an option may start. -/
def takeOption (options : Options) (argument : List Char) : Except UsageError Progress :=
  match argument with
  | ['-', '-'] => .ok (.closed options)
  | '-' :: '-' :: argument => takeLong options argument
  | '-' :: argument => takeShort options argument
  | argument => .error (.unexpectedArgument (String.ofList argument))

/-- Whether an argument is no value of the option before it. -/
def isOptionLike : List Char → Bool
  | '-' :: _ :: _ => true
  | _ => false

def take (progress : Progress) (argument : List Char) : Except UsageError Progress :=
  match progress with
  | .reading options => takeOption options argument
  | .awaiting options name =>
    if isOptionLike argument then .error (.missingValue name)
    else (options.store name argument).map .reading
  | .closed _ => .error (.unexpectedArgument (String.ofList argument))
  | .answered request => .ok (.answered request)

/-- What the arguments that are read ask for, if they are all. -/
def Progress.finish : Progress → Except UsageError Request
  | reading options | closed options => .ok (.start options)
  | awaiting _ name => .error (.missingValue name)
  | answered request => .ok request

def request (arguments : List String) : Except UsageError Request := do
  let progress ← arguments.foldlM (fun p a => take p a.toList) (.reading .none)
  progress.finish

/-! ## Execution -/

def versionText : String :=
  Host.programName ++ " 0.1.0\n"

def helpText : String :=
  "Keypad calculator host\n\n"
    ++ "Usage: calcd [OPTIONS]\n\n"
    ++ "Options:\n"
    ++ "      --settings <SETTINGS>    Settings overrides file (JSON)\n"
    ++ "  -m, --mode <MODE>            Start mode: basic or scientific\n"
    ++ "  -w, --width <WIDTH>          Display width in characters\n"
    ++ "  -s, --script <SCRIPT>        Input script file; stdin is read when omitted\n"
    ++ "      --max-steps <MAX_STEPS>  Maximum inputs to process (0 = unlimited) [default: 0]\n"
    ++ "      --log-level <LOG_LEVEL>  Log filter, e.g. info or calcd=debug (defaults to warn)\n"
    ++ "  -h, --help                   Print help\n"
    ++ "  -V, --version                Print version\n"

/-- What a run leaves behind: its exit status, what it wrote, why it failed, and its log. -/
structure Report where
  status : Nat
  output : String
  failure : Option String
  logs : List Host.LogEntry

/-- The report of a text that is shown and nothing else. -/
def Report.shown (text : String) : Report :=
  ⟨0, text, none, []⟩

/-- The report of arguments that make no sense or of a log filter that is none. -/
def Report.refused (message : String) : Report :=
  ⟨2, "", some message, []⟩

/-- The report of a run that failed after it wrote and logged something. -/
def Report.failed (output : String) (cause : Host.Error) (logs : List Host.LogEntry) : Report :=
  ⟨1, output, some ("Error: " ++ cause.message), logs⟩

def Options.filter (o : Options) : Except Host.LogFilterError Host.LogFilter :=
  match o.logLevel with
  | some text => Host.LogFilter.ofText text.toList
  | .none => .ok .default

def scriptText : Content → Except Host.Error (List Char)
  | .error cause => .error (.io cause)
  | .ok content =>
    match content.toText? with
    | some text => .ok text
    | .none => .error (.io .notText)

def scriptInputs (content : Content) : Except Host.Error (List Host.Input) := do
  let text ← scriptText content
  match Host.Input.ofScript text with
  | .ok inputs => .ok inputs
  | .error cause => .error (.script cause)

/-- The machine that the options start, the inputs of the script if there is one, and what is logged
on the way. The files are those that the options name. -/
def Options.launch (o : Options) (settings script : Option Content) :
    Except Host.Error (Machine × Option (List Host.Input)) × List Host.LogEntry :=
  let (preferences, logs) := Host.configure settings o.mode o.width
  let launched := do
    let preferences ← preferences
    let inputs ← script.mapM scriptInputs
    .ok (Machine.start preferences (o.maxSteps.getD 0), inputs)
  (launched, logs)

/-- Runs the script of the options, or a dialogue over the standard input. -/
def Options.run (o : Options) (readFile : String → Content) (input : Text.Scanned) : Report :=
  match o.launch (o.settings.map readFile) (o.script.map readFile) with
  | (.error cause, logs) => .failed "" cause logs
  | (.ok (machine, inputs), logs) =>
    let (machine, failure) := match inputs with
      | some inputs => (machine.run inputs, Option.none)
      | .none => machine.interact input
    let logs := logs ++ machine.logs.reverse
    match failure with
    | some cause => .failed machine.written cause logs
    | .none => ⟨0, machine.written, .none, logs⟩

/-- What there is to do once the arguments are read. -/
inductive Task where
  /-- Nothing but to answer. -/
  | answer (report : Report)
  | start (options : Options) (filter : Host.LogFilter)

def task (arguments : List String) : Task :=
  match request arguments with
  | .error cause => .answer (.refused cause.message)
  | .ok .help => .answer (.shown helpText)
  | .ok .version => .answer (.shown versionText)
  | .ok (.start options) =>
    match options.filter with
    | .error cause => .answer (.refused ("Error: " ++ cause.message))
    | .ok filter => .start options filter

def execute (arguments : List String) (readFile : String → Content) (input : Text.Scanned) :
    Report :=
  match task arguments with
  | .answer report => report
  | .start options filter =>
    let report := options.run readFile input
    { report with logs := filter.shown report.logs }

/-- Does what the arguments ask for in a folder. -/
def executeIn (folder : Host.Folder) (arguments : List String) (input : Text.Scanned) : Report :=
  execute arguments folder.contentAt input

end PocketCalculator.CommandLine
