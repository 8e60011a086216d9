import Ia32.CommandLine.Arguments
import Ia32.Config.Reader
import Ia32.Cpu.Dump
import Ia32.Host.Win32
import Ia32.Sandbox.Run

/-!
# Report of the runner

The runner gives an exit code and the texts for the two output channels, files being given as a
look-up by path. A configuration that cannot be read comes before an image that cannot, and both
before anything is loaded.

What it is given from outside is read by `Readers`, of which nothing is assumed: the runner is
defined for any of them (`Readers.run`). `run` is the runner with the readers of this library.
-/

namespace Ia32.CommandLine

/-- What reads the things that the runner is given. -/
structure Readers where
  /-- Reads the arguments: gives what they ask for, or the exit code of a runner that has nothing
  to run. -/
  arguments : List String → Except UInt8 Request
  config : Config.Reader
  image : Pe.Reader

/-- What the runner leaves behind. -/
inductive Report where
  /-- An exit code, the arguments asking for nothing to be run. -/
  | dismissed (code : UInt8)
  /-- The image or the configuration cannot be read, or the latter is no configuration. -/
  | unreadable
  /-- An exit code and the texts for the output and the error channel. -/
  | finished (code : UInt8) (output errors : String)
  deriving DecidableEq, Repr

/-- The exit code. -/
def Report.code : Report → UInt8
  | dismissed code => code
  | unreadable => 1
  | finished code .. => code

/-- The sandbox of the runner: the built-in libraries, and no fault handler. -/
def sandbox (config : Config) : Sandbox Unit :=
  Win32.libraries.foldl Sandbox.addEmulator (.new config ())

/-- The text about a fault: the state of the processor and the bytes at EIP. -/
def faultText (e : RunError) (cpu : Cpu) : String :=
  let bytes := String.join ((cpu.memory.readBytes cpu.eip 8).map fun b => hexDigits 2 b.toNat)
  let place :=
    match e with
    | .fault .. => "Bytes at " ++ hex32 cpu.eip ++ ": " ++ bytes ++ "\n"
    | .notLoaded => ""
  "Execution failed: " ++ e.message ++ "\n" ++ cpu.dump ++ "\n" ++ place

namespace Readers

variable (readers : Readers)

/-- Runs an image, and gives the events of the run beside the report. -/
def runImage (path : String) (file : Pe.Bytes) (config : Config) : Report × List Event :=
  let loading := (sandbox config).loadWith readers.image file
  match loading.result with
  | .error e =>
    (.finished 1 "" ("Failed to load " ++ path ++ ": " ++ e.message ++ "\n"), loading.events)
  | .ok _ =>
    let execution := loading.sandbox.execute
    let report :=
      match execution.result with
      | .ok summary =>
        .finished (if summary.stop = .aborted then 2 else 0)
          ("Stopped: " ++ summary.stop.label ++ " after " ++ toString summary.instructions ++
            " instructions (" ++ toString summary.faults ++ " faults)\n") ""
      | .error e => .finished 1 "" (faultText e execution.sandbox.cpu)
    (report, loading.events ++ execution.events)

/-- Does what a request asks for. -/
def serve (r : Request) (file? : String → Option Pe.Bytes) : Report × List Event :=
  match r.readConfig readers.config file? with
  | .error _ => (.unreadable, [])
  | .ok config =>
    match file? r.image with
    | some file => readers.runImage r.image file (r.settings config)
    | none => (.unreadable, [])

/-- Runs the runner. -/
def run (arguments : List String) (file? : String → Option Pe.Bytes) : Report :=
  match readers.arguments arguments with
  | .ok r => (readers.serve r file?).1
  | .error code => .dismissed code

end Readers

/-- The readers of this library. -/
def readers : Readers where
  arguments := parse
  config := Config.parse?
  image := Pe.Image.parse?

/-- Runs the runner with the readers of this library. -/
def run (arguments : List String) (file? : String → Option Pe.Bytes) : Report :=
  readers.run arguments file?

end Ia32.CommandLine
