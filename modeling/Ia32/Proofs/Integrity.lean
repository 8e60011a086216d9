import Ia32.Memory.Lemmas
import Ia32.Proofs.Run
import Ia32.Proofs.Steps

/-!
# Protected pages keep their bytes

`Memory.Integrity m m'` says that between `m` and `m'` no page has changed its protection
and no byte of a protected page has changed its value.

* `permits_integrity`: every step of a handler keeps this up, because all that it stores goes
  through `Memory.write8` and `Memory.write32`.
* `code_integrity`: **no run of dispatches and no run of a sandbox changes protected code**,
  as long as the host functions leave the memory of the guest alone.
-/

namespace Ia32

open Exec

/-- No protection has changed, and no byte of a page that is not writable. -/
structure Memory.Integrity (m m' : Memory) : Prop where
  protectionAt : ∀ a, m'.protectionAt a = m.protectionAt a
  read8 : ∀ a, m.protectionAt a ≠ .readWrite → m'.read8 a = m.read8 a

namespace Memory.Integrity

variable {m m' m'' : Memory}

@[refl] protected theorem refl (m : Memory) : m.Integrity m := ⟨fun _ => rfl, fun _ _ => rfl⟩

protected theorem trans (h : m.Integrity m') (h' : m'.Integrity m'') : m.Integrity m'' where
  protectionAt a := (h'.protectionAt a).trans (h.protectionAt a)
  read8 a ha := (h'.read8 a (by rwa [h.protectionAt])).trans (h.read8 a ha)

theorem of_eq (h : m' = m) : m.Integrity m' := h ▸ .refl m

/-- One more store on a page that was writable from the start. -/
theorem store8 {a : UInt32} (h : m.Integrity m') (ha : m.protectionAt a = .readWrite) (b : UInt8) :
    m.Integrity (m'.store8 a b) where
  protectionAt x := h.protectionAt x
  read8 x hx := by
    rw [read8_store8, if_neg, h.read8 x hx]
    rintro rfl
    exact hx ha

theorem write8 {a : UInt32} {b : UInt8} (h : m.write8 a b = .ok m') : m.Integrity m' := by
  obtain ⟨hdenial, rfl⟩ := guarded_eq_ok_iff.mp h
  rw [denial?_eq_none_iff] at hdenial
  exact (Integrity.refl m).store8 (hdenial a (by simp)) b

/-- A dword that lies on a writable and a protected page is not stored at all. -/
theorem write32 {a v : UInt32} (h : m.write32 a v = .ok m') : m.Integrity m' := by
  obtain ⟨hdenial, rfl⟩ := guarded_eq_ok_iff.mp h
  rw [denial?_eq_none_iff] at hdenial
  have h0 := (Integrity.refl m).store8 (hdenial a (by simp)) (byte0 v)
  have h1 := h0.store8 (hdenial (a + 1) (by simp)) (byte1 v)
  have h2 := h1.store8 (hdenial (a + 2) (by simp)) (byte2 v)
  exact h2.store8 (hdenial (a + 3) (by simp)) (byte3 v)

end Memory.Integrity

/-- The memory of the processor has kept its integrity. -/
def Cpu.Integrity (cpu cpu' : Cpu) : Prop := cpu.memory.Integrity cpu'.memory

instance : IsPreorder Cpu Cpu.Integrity where
  refl cpu := .refl cpu.memory
  trans _ _ _ := .trans

/-- Registers, EIP, the prefix, flags and frames are not memory, and stores are guarded. -/
theorem permits_integrity : Permits Cpu.Integrity where
  set cpu r v := .of_eq (cpu.memory_set r v)
  jump cpu a := .of_eq (cpu.memory_jump a)
  write8 h := Memory.Integrity.write8 h
  write32 h := Memory.Integrity.write32 h
  frames _ _ := .of_eq rfl
  rep _ _ := .of_eq rfl
  compare _ _ _ := .of_eq rfl
  direction _ _ := .of_eq rfl
  halt _ := .of_eq rfl

/-! ## Host functions -/

/-- The function does not write to the memory of the guest. A typed function has no way to. -/
def HostFunction.KeepsMemory : HostFunction → Prop
  | .typed _ _ => True
  | .variadic body => ∀ cpu, (body cpu).1.memory = cpu.memory

/-- No function of the emulator writes to the memory of the guest. -/
structure Emulator.KeepsMemory (emulator : Emulator) : Prop where
  answer : ∀ symbol cpu reply,
    emulator.answer? symbol cpu = some reply → reply.cpu.memory = cpu.memory
  decline : ∀ symbol cpu, (emulator.decline symbol cpu).1.memory = cpu.memory

/-- No emulator that the program is linked to writes to the memory of the guest. -/
def Linkage.KeepsMemory (linkage : Linkage) : Prop :=
  ∀ emulator ∈ linkage.emulators, emulator.KeepsMemory

theorem FunctionTable.emulator_keepsMemory {table : FunctionTable}
    (h : ∀ symbol f, table.function? symbol = some f → f.KeepsMemory) (name : String) :
    (table.emulator name).KeepsMemory where
  answer symbol cpu reply hreply := by
    obtain ⟨f, hf, rfl⟩ := Option.map_eq_some_iff.mp hreply
    have hkept := h symbol f hf
    cases f with
    | typed parameters body => rfl
    | variadic body => exact hkept cpu
  decline _ _ := rfl

namespace Win32

theorem returnWith_memory (cpu : Cpu) (result : UInt32) :
    (returnWith cpu result).memory = cpu.memory := rfl

theorem kernel32_keepsMemory : kernel32.KeepsMemory := by
  refine FunctionTable.emulator_keepsMemory (fun symbol f h => ?_) _
  rcases eq_of_kernel32Table h with rfl | rfl | rfl | ⟨-, rfl⟩
  · trivial
  · trivial
  · intro cpu
    rw [getTickCount, returnWith_memory]
  · intro cpu
    rw [exitProcess, returnWith_memory]

theorem user32_keepsMemory : user32.KeepsMemory := by
  refine FunctionTable.emulator_keepsMemory (fun symbol f h => ?_) _
  rw [eq_of_user32Table h]
  trivial

end Win32

/-! ## Dispatches -/

theorem Linkage.KeepsMemory.within {linkage : Linkage} (h : linkage.KeepsMemory) :
    linkage.Within Cpu.Integrity := fun emulator hmem =>
  ⟨fun symbol cpu reply hreply => .of_eq ((h emulator hmem).answer symbol cpu reply hreply),
    fun symbol cpu => .of_eq ((h emulator hmem).decline symbol cpu)⟩

namespace InstructionSet

theorem dispatch_integrity {linkage : Linkage} (hquiet : linkage.KeepsMemory) :
    Within Cpu.Integrity (standard.dispatch linkage) :=
  dispatch_within permits_integrity (fun cpu => .of_eq cpu.memory_retire) hquiet.within

end InstructionSet

namespace Sandbox

variable {σ : Type}

/-- What a run of `s` preserves: the instruction set, what the program is linked to, and the
integrity of the memory. -/
structure Intact (s s' : Sandbox σ) : Prop where
  instructions : s'.instructions = s.instructions
  linkage : s'.linkage = s.linkage
  memory : s.cpu.Integrity s'.cpu

variable {s : Sandbox σ} (hset : s.instructions = .standard) (hquiet : s.linkage.KeepsMemory)

include hset hquiet

/-- A turn may change EIP and the prefix after a fault, but what it stores is the dispatch's. -/
theorem Intact.turn {s' : Sandbox σ} (h : s.Intact s') : s.Intact s'.turn.sandbox := by
  obtain ⟨controls, rep, eip, hframe⟩ := s'.turn_frame
  have hdispatch : s'.cpu.Integrity s'.dispatch.cpu := by
    rw [dispatch, h.instructions, h.linkage, hset]
    exact InstructionSet.dispatch_integrity hquiet s'.cpu
  rw [hframe]
  exact ⟨h.instructions, h.linkage, h.memory.trans hdispatch⟩

/-- A run keeps the integrity of the memory, whatever the policy and the fault handler. -/
theorem execute_integrity : s.cpu.Integrity s.execute.sandbox.cpu := by
  have hs : s.Intact s := ⟨rfl, rfl, .refl _⟩
  exact (execute_invariant (fun _ h => h.turn hset hquiet) hs).memory

end Sandbox

namespace InstructionSet

/-- **Code integrity.** If no host function writes to the memory of the guest, then after any
number of dispatches, and after any run of a sandbox, every page has the protection it had,
and every page that is not writable has the bytes it had. What each dispatch is linked to
may be another, so host functions may have a state of their own. Typed functions, tables of
functions that keep to it, `kernel32` and `user32` all leave the memory alone. -/
theorem code_integrity :
    (∀ linkage : Nat → Linkage, (∀ n, (linkage n).KeepsMemory) →
      ∀ (cpu : Cpu) (n : Nat), cpu.memory.Integrity (standard.after linkage cpu n).memory) ∧
    (∀ (σ : Type) (s : Sandbox σ), s.instructions = .standard → s.linkage.KeepsMemory →
      s.cpu.memory.Integrity s.execute.sandbox.cpu.memory) ∧
    (∀ (table : FunctionTable) (name : String),
      (∀ symbol f, table.function? symbol = some f → f.KeepsMemory) →
        (table.emulator name).KeepsMemory) ∧
    (∀ parameters body, (HostFunction.typed parameters body).KeepsMemory) ∧
    Win32.kernel32.KeepsMemory ∧ Win32.user32.KeepsMemory := by
  refine ⟨fun linkage hquiet cpu n => ?_, fun σ s hset hquiet => ?_, fun table name h => ?_,
    fun _ _ => trivial, Win32.kernel32_keepsMemory, Win32.user32_keepsMemory⟩
  · exact within_after (fun n => dispatch_integrity (hquiet n)) cpu n
  · exact Sandbox.execute_integrity hset hquiet
  · exact FunctionTable.emulator_keepsMemory h name

/-- A processor about to store EAX over the very instruction that does it, on a page of
code. -/
def selfModifying : Cpu where
  registers := { eax := 0xcccccccc }
  eip := 0x1000
  memory := (({} : Memory).storeBytes 0x1000 [0xa3, 0x00, 0x10, 0x00, 0x00]).protectPage 0x1000
    .readExecute

/-- A sandbox with that processor. -/
def selfModifyingSandbox : Sandbox Unit :=
  { Sandbox.new {} () with
    cpu := selfModifying
    linkage := { emulators := Win32.libraries }
    image := some ⟨0x1000, 0x1000, ∅⟩ }

theorem code_integrity_selfModifying :
    selfModifying.opcode = 0xa3 ∧
      (standard.after (fun _ => { emulators := Win32.libraries }) selfModifying 3).memory.read8
        0x1000 = 0xa3 ∧
      selfModifyingSandbox.execute.sandbox.cpu.memory.read8 0x1000 = 0xa3 := by
  obtain ⟨hafter, hexecute, -, -, hkernel32, huser32⟩ := code_integrity
  have hquiet : ({ emulators := Win32.libraries } : Linkage).KeepsMemory := by
    intro emulator hmem
    obtain rfl | rfl : emulator = Win32.kernel32 ∨ emulator = Win32.user32 := by
      simpa [Win32.libraries] using hmem
    · exact hkernel32
    · exact huser32
  have hprotected : selfModifying.memory.protectionAt 0x1000 ≠ .readWrite := by
    rw [selfModifying, Memory.protectionAt_protectPage, if_pos (by decide)]
    decide
  have hopcode : selfModifying.memory.read8 0x1000 = 0xa3 := by
    simp [selfModifying, Memory.storeBytes, Memory.read8_store8]
  refine ⟨hopcode, ?_, ?_⟩
  · rw [(hafter _ (fun _ => hquiet) selfModifying 3).read8 0x1000 hprotected, hopcode]
  · rw [(hexecute Unit selfModifyingSandbox rfl hquiet).read8 0x1000 hprotected]
    exact hopcode

end InstructionSet

end Ia32
