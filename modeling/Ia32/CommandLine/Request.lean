import Ia32.Config.Basic

/-!
# What the runner is asked to do

An image to run, where its configuration is, and what overrides the configuration.
-/

namespace Ia32.CommandLine

/-- What the arguments ask for. -/
structure Request where
  /-- The path of the image. -/
  image : String
  /-- The path of the configuration, if there is one. -/
  config : Option String := none
  budget : Option UInt64 := none
  strict : Bool := false
  /-- How much more talkative the log is to be. -/
  verbose : Nat := 0
  deriving DecidableEq, Repr

namespace Request

/-- The configuration of a request, as the reader reads it. -/
def readConfig (r : Request) (read? : Config.Reader) (file? : String → Option (Array UInt8)) :
    Except ConfigError Config :=
  match r.config with
  | some path => Config.ofFileWith read? (file? path)
  | none => .ok {}

/-- The settings that a request asks for, given the configuration of its file. -/
def settings (r : Request) (config : Config) : Config :=
  { config with
    instructionBudget := r.budget.getD config.instructionBudget
    faultPolicy := if r.strict then .strict else config.faultPolicy }

end Request

end Ia32.CommandLine
