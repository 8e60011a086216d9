import Ia32.Config.Basic
import Ia32.InstructionSet
import Ia32.Pe.Load

/-!
# Sandbox

A processor with its instruction set, the image loaded into it and the symbols bound for
it, and what the host has a say in: emulators, settings, a request to halt, and a fault
handler with a state of its own.

`Sandbox.loadWith` replaces the machine, whatever the reader of PE files: after a load that fails
nothing can be run, and the processor is as it was before. `Sandbox.step` runs one instruction.
-/

namespace Ia32

/-- What a fault handler may change: the request to halt, and its own state. -/
structure Controls (σ : Type) where
  haltRequested : Bool := false
  handlerState : σ

/-- How a run goes on after a fault. -/
inductive Resolution where
  /-- The run ends. -/
  | abort
  /-- The same instruction is fetched again. -/
  | retry
  /-- The opcode byte is skipped. -/
  | ignore
  deriving DecidableEq, Repr

/-- Decides how a run goes on after a fault. -/
abbrev FaultHandler (σ : Type) := FaultReport → Controls σ → Resolution × Controls σ

/-- A machine that the host runs programs in. -/
structure Sandbox (σ : Type) where
  cpu : Cpu
  instructions : InstructionSet
  linkage : Linkage := {}
  config : Config
  controls : Controls σ
  handler? : Option (FaultHandler σ) := none
  image : Option LoadedImage := none

/-- Why a program is not run, or not run on. -/
inductive RunError where
  | notLoaded
  /-- A fault that nobody handled, after so many instructions. -/
  | fault (instructions : Nat) (source : Fault)
  deriving DecidableEq, Repr

/-- The text of an error. -/
def RunError.message : RunError → String
  | notLoaded => "No image loaded"
  | fault instructions source =>
    "Execution stopped after " ++ toString instructions ++ " instructions: " ++ source.message

/-- What a request to a sandbox gives: an answer, the sandbox after it, and the events that
happened meanwhile. -/
structure Reply (σ ε α : Type) where
  result : Except ε α
  sandbox : Sandbox σ
  events : List Event

namespace Sandbox

variable {σ : Type}

/-- A sandbox with nothing loaded. -/
def new (config : Config) (handlerState : σ) : Sandbox σ where
  cpu := .withStackTop config.stackTop
  instructions := .standard
  config
  controls := { handlerState }

/-- Adds an emulator, to be asked after those that are there already. -/
def addEmulator (s : Sandbox σ) (emulator : Emulator) : Sandbox σ :=
  { s with linkage := { s.linkage with emulators := s.linkage.emulators ++ [emulator] } }

/-- The bound symbols. -/
def imports (s : Sandbox σ) : Imports := s.linkage.imports

/-- Installs a fault handler with its state. -/
def setHandler (s : Sandbox σ) (handler : FaultHandler σ) (state : σ) : Sandbox σ :=
  { s with handler? := some handler, controls := { s.controls with handlerState := state } }

/-- Requests runs to halt, or withdraws the request. -/
def requestHalt (s : Sandbox σ) (requested : Bool) : Sandbox σ :=
  { s with controls := { s.controls with haltRequested := requested } }

/-- The sandbox without an image. The processor is left as it is. -/
def unload (s : Sandbox σ) : Sandbox σ :=
  { s with linkage := { s.linkage with imports := ∅ }, image := none }

/-- Puts the image that `mapping` maps into a fresh processor, with EIP at its entry point. -/
def install (s : Sandbox σ) (mapping : Exec LoadError LoadedImage) :
    Reply σ LoadError LoadedImage :=
  match mapping.run (.withStackTop s.config.stackTop) with
  | ⟨.ok loaded, cpu, events⟩ =>
    ⟨.ok loaded,
      { s with
        cpu := cpu.jump loaded.entry
        linkage := { s.linkage with imports := loaded.imports }
        image := some loaded },
      events⟩
  | ⟨.error e, _, events⟩ => ⟨.error e, s.unload, events⟩

/-- Loads the image that `image` says of a file. -/
def mount (s : Sandbox σ) (image : Pe.Image) (file : Pe.Bytes) : Reply σ LoadError LoadedImage :=
  s.install (image.map file s.config.thunkBase)

/-- Loads a file as the reader reads it. -/
def loadWith (s : Sandbox σ) (read? : Pe.Reader) (file : Pe.Bytes) :
    Reply σ LoadError LoadedImage :=
  s.install (Pe.loadWith read? file s.config.thunkBase)

/-- Loads a file as the reader of this library reads it. -/
def load (s : Sandbox σ) (file : Pe.Bytes) : Reply σ LoadError LoadedImage :=
  s.loadWith Pe.Image.parse? file

/-- Carries out the instruction at EIP. -/
def dispatch (s : Sandbox σ) : Outcome Fault Unit :=
  (s.instructions.dispatch s.linkage).run s.cpu

/-- Runs one instruction. -/
def step (s : Sandbox σ) : Reply σ RunError Unit :=
  if s.image.isNone then ⟨.error .notLoaded, s, []⟩
  else
    match s.dispatch with
    | ⟨.ok (), cpu, events⟩ => ⟨.ok (), { s with cpu }, events⟩
    | ⟨.error fault, cpu, events⟩ =>
      ⟨.error (.fault cpu.retired.toNat fault), { s with cpu }, events⟩

end Sandbox

end Ia32
