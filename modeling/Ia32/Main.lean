import Ia32.CommandLine.Report

/-!
# Runner

The program: reads the files that its arguments name, runs the image, and prints.
-/

namespace Ia32.CommandLine

/-- The bytes of a file, if it can be read. -/
def readFile? (path : String) : IO (Option Pe.Bytes) := do
  try
    return some (← IO.FS.readBinFile path).data
  catch _ =>
    return none

/-- Prints the log of a run, as far as the request asks for it. -/
def printLog (request : Request) (events : List Event) : IO Unit :=
  for (level, text) in Event.records (min 5 (3 + request.verbose)) events do
    IO.eprintln ("[" ++ level.label ++ "] " ++ text)

/-- Does what a request asks for and gives the exit code. -/
def perform (request : Request) : IO UInt32 := do
  let paths := request.image :: request.config.toList
  let files ← paths.mapM fun path => return (path, ← readFile? path)
  let (report, events) := readers.serve request fun path => (files.lookup path).join
  printLog request events
  match report with
  | .finished _ output errors =>
    IO.print output
    IO.eprint errors
  | _ => IO.eprintln "Cannot read the image or its configuration"
  return report.code.toUInt32

/-- How the runner is used. -/
def usage : String :=
  "usage: ia32 [--config PATH] [--budget N] [--strict] [--verbose] IMAGE"

/-- Says how the runner is used: asked for it on the output channel, else on the error channel. -/
def dismiss (code : UInt8) : IO UInt32 := do
  if code = helpCode then IO.println usage else IO.eprintln usage
  return code.toUInt32

end Ia32.CommandLine

def main (arguments : List String) : IO UInt32 :=
  match Ia32.CommandLine.readers.arguments arguments with
  | .ok request => Ia32.CommandLine.perform request
  | .error code => Ia32.CommandLine.dismiss code
