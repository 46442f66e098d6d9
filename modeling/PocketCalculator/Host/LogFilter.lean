import PocketCalculator.Host.LogField
import PocketCalculator.Host.Machine
import PocketCalculator.Text.Alphabetic
import PocketCalculator.Text.Cut

/-!
# Log filters

A log filter is a list of directives with commas between them. A directive is a level, a target, or
a target with a level behind an equals sign; it may be bound to a span in square brackets, with a
field in braces. The directive with the longest target that the program's name starts with decides
what is shown.
-/

namespace PocketCalculator.Host

/-- The name of the program, which is the target of all that it logs. -/
def programName : String :=
  "calcd"

/-- How much is shown, from nothing to everything. -/
inductive LogLevel where
  | off
  | error
  | warn
  | info
  | debug
  | trace
  deriving DecidableEq, Repr

namespace LogLevel

def rank : LogLevel → Nat
  | off => 0
  | error => 1
  | warn => 2
  | info => 3
  | debug => 4
  | trace => 5

def name : LogLevel → String
  | off => "off"
  | error => "error"
  | warn => "warn"
  | info => "info"
  | debug => "debug"
  | trace => "trace"

def all : List LogLevel :=
  [off, error, warn, info, debug, trace]

/-- A level by its name in any letter case, or by its rank. -/
def ofText? (text : List Char) : Option LogLevel :=
  let digits := if text.head? = some '+' then text.drop 1 else text
  if !digits.isEmpty && digits.all Char.isDigit then
    all.find? (·.rank = Nat.ofDigitChars 10 digits 0)
  else all.find? fun level => Layout.sameLetters level.name.toList text

end LogLevel

inductive LogFilterError where
  | directive
  | level
  | field (cause : Pattern.Fault)
  deriving DecidableEq, Repr

def LogFilterError.message : LogFilterError → String
  | directive => "Invalid log level: invalid filter directive"
  | level =>
    "Invalid log level: error parsing level filter: expected one of \"off\", \"error\", \"warn\", "
      ++ "\"info\", \"debug\", \"trace\", or a number 0-5"
  | field cause => "Invalid log level: invalid field filter: " ++ cause.message

/-! ## Directives -/

structure LogDirective where
  target : List Char
  /-- Bound to a span or to fields. -/
  isBound : Bool
  level : LogLevel
  deriving DecidableEq, Repr

namespace LogDirective

/-- Which part of a directive is read. A start is the place where the part begins. -/
inductive Stage where
  | start
  | target
  | span
  | field (start : Nat)
  | fieldEnd
  | spanEnd
  | level (start : Nat)
  deriving DecidableEq, Repr

structure Draft where
  stage : Stage
  target : List Char
  isBound : Bool
  deriving DecidableEq, Repr

def startsTarget (c : Char) : Bool :=
  Text.isAlphanumeric c || c == '-' || c == ':' || c == '_'

def levelOf : List Char → Except LogFilterError LogLevel
  | [] => .ok .trace
  | text =>
    match LogLevel.ofText? text with
    | some level => .ok level
    | none => .error .level

def checkField (text : List Char) : Except LogFilterError Unit :=
  if text.isEmpty then .error .directive
  else
    match LogField.fault? text with
    | some cause => .error (.field cause)
    | none => .ok ()

/-- Takes the character at a place. The target and the fields are cut out of `text`. -/
def Draft.push (text : List Char) (d : Draft) (place : Nat) (c : Char) :
    Except LogFilterError Draft :=
  match d.stage with
  | .start =>
    if c = '[' then .ok ⟨.span, d.target, true⟩
    else if startsTarget c then .ok { d with stage := .target }
    else .error .directive
  | .target =>
    if c = '=' then .ok ⟨.level (place + 1), Text.before place text, d.isBound⟩
    else if c = '[' then .ok ⟨.span, Text.before place text, true⟩
    else .ok d
  | .span =>
    if c = ']' then .ok { d with stage := .spanEnd }
    else if c = '\x7b' then .ok { d with stage := .field (place + 1) }
    else .ok d
  | .field start =>
    if c = '\x7d' then do
      checkField (Text.between start place text)
      .ok { d with stage := .fieldEnd }
    else .ok d
  | .fieldEnd => if c = ']' then .ok { d with stage := .spanEnd } else .error .directive
  | .spanEnd =>
    if c = '=' then .ok { d with stage := .level (place + 1) } else .error .directive
  | .level _ => .ok d

def Draft.pushAll (text : List Char) (d : Draft) (place : Nat) :
    List Char → Except LogFilterError Draft
  | [] => .ok d
  | c :: rest => do (← d.push text place c).pushAll text (place + c.utf8Size) rest

def Draft.finish (text : List Char) (d : Draft) : Except LogFilterError LogDirective :=
  match d.stage with
  | .target =>
    match LogLevel.ofText? text with
    | some level => .ok ⟨[], false, level⟩
    | none => .ok ⟨text, false, .trace⟩
  | .level start => (levelOf (Text.fromPlace start text)).map (⟨d.target, d.isBound, ·⟩)
  | .spanEnd => .ok ⟨d.target, d.isBound, .trace⟩
  | _ => .error .directive

/-- Reads a directive. Blanks at its ends are passed over when the places of its parts are found,
but they count when the parts are cut out. -/
def ofText (text : List Char) : Except LogFilterError LogDirective := do
  (← Draft.pushAll text ⟨.start, [], false⟩ 0 (Text.trim text)).finish text

end LogDirective

/-! ## Filters -/

abbrev LogFilter :=
  List LogDirective

namespace LogFilter

def default : LogFilter :=
  [⟨[], false, .warn⟩]

def ofText (text : List Char) : Except LogFilterError LogFilter :=
  let parts := Text.linesFrom (· == ',') [] text
  (parts.filter (!·.isEmpty)).mapM LogDirective.ofText

/-- The level up to which entries are shown. -/
def shownLevel (filter : LogFilter) : LogLevel :=
  let matching := filter.filter fun d => !d.isBound && d.target.isPrefixOf programName.toList
  -- Where no directive matches, errors alone are shown. Of equal targets the last counts.
  let best := matching.foldl
    (fun best d => if best.target.length ≤ d.target.length then d else best)
    ⟨[], false, .error⟩
  best.level

end LogFilter

def LogEntry.level : LogEntry → LogLevel
  | evaluated .. | evaluationFailed .. | quitRequested _ => .info
  | unknownButton _ | ignoredLine _ | ignoredSetting _ => .warn

def LogFilter.shown (filter : LogFilter) (entries : List LogEntry) : List LogEntry :=
  entries.filter (·.level.rank ≤ filter.shownLevel.rank)

end PocketCalculator.Host
