import Ia32.CommandLine.Request
import Ia32.Text.Numeral

/-!
# Arguments of the runner

The runner is given the path of an image and options:

* `-c`, `--config` with the path of a configuration,
* `-b`, `--budget` with the number of instructions, which overrides the configuration's,
* `--strict` to stop at the first refused store,
* `-v`, `--verbose` for a more talkative log, each time it is given,
* `-h`, `--help` and `-V`, `--version`, after which nothing is run.

A long option takes its value after an equals sign or from the next argument; a short one
also from the rest of its own argument, and short options without a value can be run
together. After `--` all arguments are paths. No path is empty, and only `--verbose` may be
given again. Arguments are read in turn, and the first that is not in order, or that asks for
help, is the last one read.
-/

namespace Ia32.CommandLine

/-- The exit code for arguments that ask for help or for the version. -/
def helpCode : UInt8 := 0

/-- The exit code for arguments that are not in order. -/
def usageCode : UInt8 := 2

/-- What the arguments so far ask for. -/
structure Draft where
  image : Option String := none
  config : Option String := none
  budget : Option UInt64 := none
  strict : Bool := false
  verbose : Nat := 0

namespace Draft

/-- Sets the path of the image, once. -/
def setImage (d : Draft) (path : String) : Except UInt8 Draft :=
  if d.image.isSome || path.isEmpty then .error usageCode else .ok { d with image := some path }

/-- Sets the path of the configuration, once. -/
def setConfig (d : Draft) (path : String) : Except UInt8 Draft :=
  if d.config.isSome || path.isEmpty then .error usageCode else .ok { d with config := some path }

/-- Sets the budget, once. -/
def setBudget (d : Draft) (numeral : String) : Except UInt8 Draft :=
  match unsigned? numeral.toList with
  | some n =>
    if d.budget.isSome || UInt64.size ≤ n then .error usageCode
    else .ok { d with budget := some (UInt64.ofNat n) }
  | none => .error usageCode

/-- Asks for strictness, once. -/
def setStrict (d : Draft) : Except UInt8 Draft :=
  if d.strict then .error usageCode else .ok { d with strict := true }

/-- Asks for a more talkative log. -/
def addVerbose (d : Draft) : Draft := { d with verbose := d.verbose + 1 }

/-- What all arguments ask for: there has to be an image. -/
def request (d : Draft) : Except UInt8 Request :=
  match d.image with
  | some image =>
    .ok { image, config := d.config, budget := d.budget, strict := d.strict, verbose := d.verbose }
  | none => .error usageCode

end Draft

/-- An option that takes a value. -/
inductive ValueOption where
  | config
  | budget
  deriving DecidableEq, Repr

/-- Gives an option its value. -/
def ValueOption.set (d : Draft) (value : String) : ValueOption → Except UInt8 Draft
  | config => d.setConfig value
  | budget => d.setBudget value

/-- What is left to do after an argument: go on, or give an option the next argument. -/
inductive Pending where
  | nothing
  | value (option : ValueOption)
  deriving DecidableEq, Repr

/-- The effect of an option that takes a value, which may be there already. -/
def ValueOption.take (d : Draft) (value? : Option String) (option : ValueOption) :
    Except UInt8 (Draft × Pending) :=
  match value? with
  | some value => (option.set d value).map (·, .nothing)
  | none => .ok (d, .value option)

/-- The effect of a long option, `name` being its name and `value?` what follows an equals sign. -/
def readLong (d : Draft) (name : String) (value? : Option String) :
    Except UInt8 (Draft × Pending) :=
  if name = "config" then ValueOption.config.take d value?
  else if name = "budget" then ValueOption.budget.take d value?
  else if value?.isSome then .error usageCode
  else if name = "strict" then d.setStrict.map (·, .nothing)
  else if name = "verbose" then .ok (d.addVerbose, .nothing)
  else if name = "help" ∨ name = "version" then .error helpCode
  else .error usageCode

/-- The value that the rest of an argument is for the short option before it. -/
def attached? : List Char → Option String
  | [] => none
  | '=' :: cs => some (String.ofList cs)
  | cs => some (String.ofList cs)

/-- The effect of the short options of an argument. -/
def readShorts (d : Draft) : List Char → Except UInt8 (Draft × Pending)
  | [] => .ok (d, .nothing)
  | 'v' :: cs => readShorts d.addVerbose cs
  | 'c' :: cs => ValueOption.config.take d (attached? cs)
  | 'b' :: cs => ValueOption.budget.take d (attached? cs)
  | 'h' :: _ | 'V' :: _ => .error helpCode
  | _ => .error usageCode

/-- The name and value of a long option. -/
def splitLong (cs : List Char) : String × Option String :=
  let name := cs.takeWhile (· ≠ '=')
  match cs.drop name.length with
  | [] => (String.ofList name, none)
  | _ :: value => (String.ofList name, some (String.ofList value))

/-- The effect of an argument where `--` is not meant, unless it is a path. -/
def readOption? (d : Draft) (argument : String) : Option (Except UInt8 (Draft × Pending)) :=
  match argument.toList with
  | '-' :: '-' :: cs =>
    let (name, value?) := splitLong cs
    some (readLong d name value?)
  | '-' :: c :: cs => some (readShorts d (c :: cs))
  | _ => none

/-- Reads the arguments in turn. An option is no value of the option before it. -/
def readArguments (d : Draft) : Pending → List String → Except UInt8 Draft
  | .nothing, [] => .ok d
  | .value _, [] => .error usageCode
  | .nothing, "--" :: paths => paths.foldlM Draft.setImage d
  | .value _, "--" :: _ => .error usageCode
  | .nothing, argument :: rest =>
    match readOption? d argument with
    | some effect => effect.bind fun (d, next) => readArguments d next rest
    | none => (d.setImage argument).bind fun d => readArguments d .nothing rest
  | .value option, argument :: rest =>
    match readOption? d argument with
    | some _ => .error usageCode
    | none => (option.set d argument).bind fun d => readArguments d .nothing rest

/-- What the arguments ask for, or the exit code of a runner that has nothing to run. -/
def parse (arguments : List String) : Except UInt8 Request := do
  (← readArguments {} .nothing arguments).request

end Ia32.CommandLine
