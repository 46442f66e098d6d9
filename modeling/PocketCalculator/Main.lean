import PocketCalculator.CommandLine

/-!
# The program

Reads the files that the arguments name, feeds the machine and writes what it has to show. A
dialogue is held line by line: each line is answered before the next is read.
-/

namespace PocketCalculator

open CommandLine (Report)
open Host (Content LogEntry LogFilter Machine)

/-- The cause that an error code of the system stands for. -/
def causeOfCode? : Nat → Option Settings.IoError
  | 2 => some .notFound
  | 13 => some .denied
  | 20 => some .notDirectory
  | 21 => some .isDirectory
  | 36 => some .nameTooLong
  | _ => none

/-- The error code of the system in an error, if there is one. -/
def codeOf? : IO.Error → Option UInt32
  | .noFileOrDirectory _ code _ | .permissionDenied _ code _ | .inappropriateType _ code _
  | .invalidArgument _ code _ => some code
  | _ => none

def ioErrorOf (cause : IO.Error) : Settings.IoError :=
  -- Some codes come as their negatives.
  let known := (codeOf? cause).bind fun code => causeOfCode? (min code (-code)).toNat
  known.getD (.other (toString cause))

def contentAt (path : String) : IO Content := do
  try
    let octets ← IO.FS.readBinFile path
    return .ok (Text.Utf8.decode octets.toList)
  catch cause => return .error (ioErrorOf cause)

/-- Writes the log entries that a filter shows. -/
def writeLogs (filter : LogFilter) (entries : List LogEntry) : IO Unit :=
  (filter.shown entries).forM fun entry => IO.eprintln entry.text

/-- Writes a report and gives the exit status. -/
def writeReport (report : Report) : IO UInt32 := do
  IO.print report.output
  report.logs.forM fun entry => IO.eprintln entry.text
  report.failure.forM IO.eprintln
  return report.status.toUInt32

/-- Writes what a machine has to show, and gives the machine that has shown it. -/
def drain (filter : LogFilter) (m : Machine) : IO Machine := do
  let output ← IO.getStdout
  output.putStr m.written
  output.flush
  writeLogs filter m.logs.reverse
  return { m with outputs := [], logs := [] }

/-- Reads the octets of a line up to its end or that of the input. Those that are read are held
newest first. -/
partial def readOctets (input : IO.FS.Stream) (line : List UInt8) : IO (List UInt8) := do
  let next ← input.read 1
  match next.toList with
  | [] => return line.reverse
  | octet :: _ =>
    if octet == '\n'.toUInt8 then return (octet :: line).reverse
    else readOctets input (octet :: line)

/-- Reads a line of the standard input; there is none at its end. -/
def readLine : IO (Except Host.Error (Option (List Char))) := do
  try
    let octets ← readOctets (← IO.getStdin) []
    match Text.scannedLines (Text.Utf8.decode octets) with
    | [] => return .ok none
    | line :: _ =>
      match Text.Scanned.toText? line with
      | some text => return .ok (some text)
      | none => return .error (.io .notText)
  catch cause => return .error (.io (ioErrorOf cause))

/-- Holds a dialogue, from a line with a number on. -/
partial def converse (filter : LogFilter) (number : Nat) (m : Machine) : IO UInt32 := do
  let m ← drain filter m
  match ← readLine with
  | .error cause => writeReport (.failed "" cause [])
  | .ok none => return 0
  | .ok (some line) =>
    match m.takeLine number line with
    | (m, true) => converse filter (number + 1) m
    | (m, false) =>
      discard (drain filter m)
      return 0

end PocketCalculator

open PocketCalculator in
def main (arguments : List String) : IO UInt32 := do
  match CommandLine.task arguments with
  | .answer report => writeReport report
  | .start options filter =>
    let settings ← options.settings.mapM contentAt
    let script ← options.script.mapM contentAt
    let (launched, logs) := options.launch settings script
    writeLogs filter logs
    match launched with
    | .error cause => writeReport (.failed "" cause [])
    | .ok (machine, some inputs) =>
      discard (drain filter (machine.run inputs))
      return 0
    | .ok (machine, none) => converse filter 1 machine.render
