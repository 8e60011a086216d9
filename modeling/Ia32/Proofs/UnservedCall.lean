import Ia32.Proofs.HostCall

/-!
# Calls that nobody answers

A call of an imported symbol that no registry has a function for goes on in the guest, at the
thunk of the symbol. A thunk is a lone RET.

* `consult_registries_in_vain`: registries without the symbol are asked in vain.
* `consult_registries_cases`: registries are asked in vain, or the first one with the symbol answers.
* `dispatch_unserved`: **a call that nobody answers returns by itself**, one dispatch later, to a
  caller that finds its registers and its stack as they were.
-/

namespace Ia32

open Exec

/-- Registries without the symbol are asked in vain, and leave no trace of it. -/
theorem consult_registries_in_vain {symbol : String} {registries : List Registry}
    (hunserved : ∀ registry ∈ registries, registry.table.contains symbol = false) (cpu : Cpu) :
    (consult symbol (registries.map Registry.emulator)).run cpu = ⟨.ok none, cpu, []⟩ := by
  induction registries with
  | nil => rfl
  | cons first others ih =>
    obtain ⟨hfirst, hothers⟩ := List.forall_mem_cons.mp hunserved
    rw [List.map_cons, consult_run_cons_of_not_contains hfirst, ih hothers]

/-- **How registries are consulted**: all of them in vain, or the first one with the symbol
answers. -/
theorem consult_registries_cases (symbol : String) (registries : List Registry) (cpu : Cpu) :
    (consult symbol (registries.map Registry.emulator)).run cpu = ⟨.ok none, cpu, []⟩ ∨
      ∃ registry reply, registries.find? (·.table.contains symbol) = some registry ∧
        registry.emulator.answer? symbol cpu = some reply ∧
        (consult symbol (registries.map Registry.emulator)).run cpu =
          ⟨.ok (some (registry.emulator, reply.result)), reply.cpu, reply.events⟩ := by
  cases hfirst : registries.find? (·.table.contains symbol) with
  | none => exact .inl (consult_registries_in_vain (by simpa using hfirst) cpu)
  | some registry =>
    obtain ⟨reply, hanswer⟩ := registry.exists_answer (by simpa using List.find?_some hfirst) cpu
    exact .inr ⟨registry, reply, rfl, hanswer, consult_registries_of_answer hfirst hanswer⟩

/-- A call that nobody answers enters the guest at its target. -/
theorem enterCall_run_unserved {cpu : Cpu} {imports : Imports} {target : UInt32} {symbol : String}
    (hsymbol : imports.name? target = some symbol) {registries : List Registry}
    (hunserved : ∀ registry ∈ registries, registry.table.contains symbol = false)
    (hstack : cpu.memory.Writable (cpu.esp - 4) 4) (next : UInt32) :
    (enterCall { imports, emulators := registries.map Registry.emulator } target next).run cpu =
      ⟨.ok (), (cpu.called next).jump target, [.unserved symbol target]⟩ := by
  rw [enterCall_run hstack]
  simp only [hsymbol]
  rw [bind_run, consult_registries_in_vain hunserved]
  rfl

/-- A page that refuses stores has no byte of a run of bytes that allows them. -/
theorem Memory.Writable.le_sub {m : Memory} {a n x : UInt32} (h : m.Writable a n)
    (hx : m.protectionAt x ≠ .readWrite) : n ≤ x - a :=
  UInt32.not_lt.mp fun hlt => hx (h x hlt)

namespace InstructionSet

/-- **A call that nobody answers returns by itself.** The instruction at EIP is a call of an
imported symbol that none of the registries has a function for, its target is a RET on a page that
is not writable, and the return address can be pushed. Then the next two dispatches succeed, and

* the first one leaves EIP at the target, and the second one at the address after the call. What
  happens are the notes of the dispatcher and the note that nobody answers: no function of the
  host is run, and the second dispatch would be the same under any other linkage;
* in the end registers, flags, halted flag and protections are those from before the call, and of
  the memory no byte has changed but those of the return address, which is still there below the
  caller's stack pointer;
* the frame of that slot is gone, the other frames are the ones from before, and two instructions
  have retired. -/
theorem dispatch_unserved {cpu : Cpu} {target next : UInt32} (hcalls : cpu.Calls target next)
    {imports : Imports} {symbol : String} (hsymbol : imports.name? target = some symbol)
    {registries : List Registry}
    (hunserved : ∀ registry ∈ registries, registry.table.contains symbol = false)
    (hthunk : cpu.memory.read8 target = 0xc3)
    (hprotected : cpu.memory.protectionAt target ≠ .readWrite)
    (hstack : cpu.memory.Writable (cpu.esp - 4) 4) :
    let memory := cpu.memory.store32 (cpu.esp - 4) next
    let entered : Cpu :=
      { cpu with
        registers := { cpu.registers with esp := cpu.esp - 4 }
        eip := target
        memory
        rep := none
        retired := cpu.retired + 1
        frames := cpu.frames.insert (cpu.esp - 4) next }
    (standard.dispatch { imports, emulators := registries.map Registry.emulator }).run cpu =
        ⟨.ok (), entered, standard.preamble cpu ++ [.unserved symbol target]⟩ ∧
      (∀ linkage, (standard.dispatch linkage).run entered =
        ⟨.ok (),
          { cpu with
            eip := next
            memory
            rep := none
            retired := cpu.retired + 2
            frames := cpu.frames.erase (cpu.esp - 4) },
          [.dispatched target 0xc3 "ret"]⟩) ∧
      memory.read32 (cpu.esp - 4) = next ∧
      (∀ a, 4 ≤ a - (cpu.esp - 4) → memory.read8 a = cpu.memory.read8 a) ∧
      ∀ a, memory.protectionAt a = cpu.memory.protectionAt a := by
  intro memory entered
  refine ⟨?_, fun linkage => ?_, by simp [memory], fun a ha => Memory.read8_store32_of_le _ _ _ ha,
    fun a => rfl⟩
  · have hstack' : cpu.dropRep.memory.Writable (cpu.dropRep.esp - 4) 4 := hstack
    rw [dispatch_of_calls hcalls, enterCall_run_unserved hsymbol hunserved hstack', concluded_ok]
    rfl
  · -- the return address has gone to writable pages, so the thunk is still the one from before
    have hopcode : entered.opcode = 0xc3 := by
      have hkept : memory.read8 target = cpu.memory.read8 target :=
        cpu.memory.read8_store32_of_le _ _ (hstack.le_sub hprotected)
      exact hkept.trans hthunk
    have hnotes : standard.preamble entered = [.dispatched target 0xc3 "ret"] := by
      have hhandler : standard.handler? entered.opcode = some .ret := by
        rw [hopcode, standard_handler?_eq]
        rfl
      rw [preamble_of_some hhandler, notes, hopcode]
      rfl
    have hentered : entered.dropRep = (({ cpu with rep := none }.retire.called next).jump target) :=
      rfl
    have hesp : cpu.esp + 0 = cpu.esp := UInt32.add_zero _
    have hretired : cpu.retired + 1 + 1 = cpu.retired + 2 := by rw [UInt64.add_assoc]; rfl
    rw [dispatch_of_returns (.plain hopcode), hnotes, hentered, Cpu.returnToCaller_called]
    simp only [Cpu.retire, hesp, hretired]
    rfl

/-- The processor of `addCall` with a thunk at the target of the call, on a page of code. -/
def sleepCall : Cpu :=
  { addCall with
    memory := (addCall.memory.store8 0x7ff00000 0xc3).protectPage 0x7ff00000 .readExecute }

/-- The registries of the emulated libraries. None of them has a function `Sleep`. -/
def libraryRegistries : List Registry :=
  [⟨"kernel32", Win32.kernel32Table⟩, ⟨"user32", Win32.user32Table⟩]

theorem dispatch_unserved_sleep :
    let linkage : Linkage :=
      { imports := .ofList [("Sleep", 0x7ff00000)]
        emulators := libraryRegistries.map Registry.emulator }
    let entered := (standard.dispatch linkage).run sleepCall
    let returned := (standard.dispatch linkage).run entered.cpu
    entered.result = .ok () ∧ entered.cpu.eip = 0x7ff00000 ∧
      returned.result = .ok () ∧ returned.cpu.eip = 0x1006 ∧
      returned.cpu.registers = { esp := 0 } ∧ returned.cpu.retired = 2 ∧
      returned.cpu.memory.read32 0xfffffffc = 0x1006 := by
  have hopcode : sleepCall.opcode = 0xff := by
    simp [sleepCall, addCall, Cpu.opcode, Memory.read8_store32, Memory.storeBytes,
      Memory.read8_store8]
  have hform : sleepCall.codeByte 1 = 0x15 := by
    simp [sleepCall, addCall, Cpu.codeByte, Memory.read8_store32, Memory.storeBytes,
      Memory.read8_store8]
  have hslot : sleepCall.codeDword 2 = 0x2000 := by
    simp [sleepCall, addCall, Cpu.codeDword, Memory.read32, Memory.read8_store32,
      Memory.storeBytes, Memory.read8_store8]
    decide
  have htarget : sleepCall.memory.read32 (sleepCall.codeDword 2) = 0x7ff00000 := by
    rw [hslot]
    simp [sleepCall, addCall, Memory.read32, Memory.read8_store32, Memory.storeBytes,
      Memory.read8_store8]
  have hcalls : sleepCall.Calls 0x7ff00000 0x1006 := htarget ▸ .slot hopcode hform
  have hsymbol : (Imports.ofList [("Sleep", 0x7ff00000)]).name? 0x7ff00000 = some "Sleep" := by rfl
  have hunserved : ∀ registry ∈ libraryRegistries, registry.table.contains "Sleep" = false := by
    simp only [libraryRegistries, List.forall_mem_cons, List.not_mem_nil, false_imp_iff,
      implies_true, and_true]
    exact ⟨by rfl, by rfl⟩
  have hthunk : sleepCall.memory.read8 0x7ff00000 = 0xc3 := by
    rw [sleepCall, Memory.read8_protectPage, Memory.read8_store8_self]
  have hprotected : sleepCall.memory.protectionAt 0x7ff00000 ≠ .readWrite := by
    rw [sleepCall, Memory.protectionAt_protectPage, if_pos (by decide)]
    decide
  have hstack : sleepCall.memory.Writable (sleepCall.esp - 4) 4 := by
    intro a ha
    -- the four bytes below the stack pointer are those at the top of the address space
    have hpage : pageBase a ≠ 0x7ff00000 := by
      rcases Memory.sub_lt_four_iff.mp ha with rfl | rfl | rfl | rfl <;> decide
    rw [sleepCall, Memory.protectionAt_protectPage, if_neg hpage]
    simp [addCall, Memory.storeBytes]
  obtain ⟨hentered, hreturned, hreturn, -, -⟩ :=
    dispatch_unserved hcalls hsymbol hunserved hthunk hprotected hstack
  dsimp only at hentered ⊢
  rw [hentered]
  dsimp only
  rw [hreturned]
  exact ⟨rfl, rfl, rfl, rfl, rfl, rfl, hreturn⟩

end InstructionSet

end Ia32
