import Ia32.Cpu.Lemmas
import Ia32.Host.Win32
import Ia32.Memory.Lemmas
import Ia32.Proofs.Dispatch

/-!
# Calls that the host answers

`Cpu.Calls target next` says which bytes at EIP are a call of `target` that returns to `next`, and
`Cpu.Returns released` which bytes are a return.

* `dispatch_of_calls`: the dispatch of a call is `enterCall` at its target.
* `dispatch_of_returns`: the dispatch of a return takes its bytes off the stack.
* `enterCall_run`: a call that can push its return address goes on from the state `Cpu.called`.
* `dispatch_unnamed`, `dispatch_answered`: the dispatch of a call that no emulator is asked about,
  and of one that the first emulator answers.
* `consult_registries_of_answer`: of the registries of a list, the first one with the symbol
  answers.
* `dispatch_served`: **a call that a typed host function answers is that function at the
  arguments on the stack**; the guest finds the result in EAX and its stack in balance.
-/

namespace Ia32

open Exec

/-- The instruction at EIP is a call of `target`, and `next` is the address after it. -/
inductive Cpu.Calls (cpu : Cpu) : (target next : UInt32) → Prop where
  /-- E8: the target is at a distance from the next instruction. -/
  | relative (hopcode : cpu.opcode = 0xe8) :
    Calls cpu (cpu.eip + 5 + cpu.codeDword 1) (cpu.eip + 5)
  /-- FF D0 to FF D7: the target is in a register. -/
  | register (hopcode : cpu.opcode = 0xff) (hlow : 0xd0 ≤ cpu.codeByte 1)
    (hhigh : cpu.codeByte 1 ≤ 0xd7) :
    Calls cpu (cpu.get (.ofLowBits (cpu.codeByte 1))) (cpu.eip + 2)
  /-- FF 15: the target is in the slot at a fixed address. -/
  | slot (hopcode : cpu.opcode = 0xff) (hform : cpu.codeByte 1 = 0x15) :
    Calls cpu (cpu.memory.read32 (cpu.codeDword 2)) (cpu.eip + 6)

/-- The instruction at EIP is a return, which takes `released` bytes off the stack besides the
return address. -/
inductive Cpu.Returns (cpu : Cpu) : (released : UInt32) → Prop where
  /-- C3. -/
  | plain (hopcode : cpu.opcode = 0xc3) : Returns cpu 0
  /-- C2: the bytes to take off are counted by a word in the code. -/
  | counted (hopcode : cpu.opcode = 0xc2) :
    Returns cpu (cpu.memory.read16 (cpu.eip + 1)).toUInt32

/-- The state in which a call has pushed its return address and noted its frame. -/
def Cpu.called (cpu : Cpu) (returnAddress : UInt32) : Cpu :=
  { cpu with
    registers := { cpu.registers with esp := cpu.esp - 4 }
    memory := cpu.memory.store32 (cpu.esp - 4) returnAddress
    frames := cpu.frames.insert (cpu.esp - 4) returnAddress }

/-- A table of host functions with the name it goes by. -/
structure Registry where
  name : String
  table : FunctionTable

/-- The emulator that answers from a registry. -/
def Registry.emulator (registry : Registry) : Emulator := registry.table.emulator registry.name

/-! ## The instructions -/

theorem Cpu.Calls.opcode {cpu : Cpu} {target next : UInt32} (h : cpu.Calls target next) :
    cpu.opcode = 0xe8 ∨ cpu.opcode = 0xff := by
  cases h with
  | relative hopcode => exact .inl hopcode
  | register hopcode => exact .inr hopcode
  | slot hopcode => exact .inr hopcode

theorem Cpu.Returns.opcode {cpu : Cpu} {released : UInt32} (h : cpu.Returns released) :
    cpu.opcode = 0xc2 ∨ cpu.opcode = 0xc3 := by
  cases h with
  | plain hopcode => exact .inr hopcode
  | counted hopcode => exact .inl hopcode

/-- Of the operands of FF, a call takes the registers. -/
theorem ModRm.called_register_iff {b : UInt8} :
    (ModRm.ofByte b).reg.val = 2 ∧ (ModRm.ofByte b).isRegister = true ↔ 0xd0 ≤ b ∧ b ≤ 0xd7 := by
  have hlt := b.toNat_lt
  have hreg : (ModRm.ofByte b).reg.val = b.toNat / 8 % 8 := rfl
  have hmode : (ModRm.ofByte b).mode.val = b.toNat / 64 % 4 := rfl
  rw [isRegister, decide_eq_true_eq, hreg, hmode, UInt8.le_iff_toNat_le, UInt8.le_iff_toNat_le]
  simp only [UInt8.reduceToNat]
  omega

/-- Besides, it takes the one form that is a fixed address. -/
theorem ModRm.called_slot_iff {b : UInt8} :
    (ModRm.ofByte b).reg.val = 2 ∧ (ModRm.ofByte b).mode.val = 0 ∧ (ModRm.ofByte b).rm.val = 5 ↔
      b = 0x15 := by
  have hlt := b.toNat_lt
  have hreg : (ModRm.ofByte b).reg.val = b.toNat / 8 % 8 := rfl
  have hmode : (ModRm.ofByte b).mode.val = b.toNat / 64 % 4 := rfl
  have hrm : (ModRm.ofByte b).rm.val = b.toNat % 8 := rfl
  rw [hreg, hmode, hrm, ← UInt8.toNat_inj]
  simp only [UInt8.reduceToNat]
  omega

namespace InstructionSet

variable {cpu : Cpu} {target next : UInt32}

/-- **A call instruction enters the call of its target**, without a pending prefix. -/
theorem dispatch_of_calls (hcalls : cpu.Calls target next) (linkage : Linkage) :
    (standard.dispatch linkage).run cpu =
      concluded (standard.preamble cpu) ((enterCall linkage target next).run cpu.dropRep) := by
  have hrelative : standard.handler? 0xe8 = some .callRelative := by
    rw [standard_handler?_eq]
    rfl
  have hindirect : standard.handler? 0xff = some .callIndirect := by
    rw [standard_handler?_eq]
    rfl
  cases hcalls with
  | relative hopcode =>
    rw [dispatch_run_dropRep linkage (by rw [hopcode, hrelative]) rfl, Handler.callRelative]
    dsimp only
    rw [state_bind_run, Cpu.eip_dropRep, Cpu.codeDword_dropRep]
  | register hopcode hlow hhigh =>
    have hregister := ModRm.called_register_iff.mpr ⟨hlow, hhigh⟩
    rw [dispatch_run_dropRep linkage (by rw [hopcode, hindirect]) rfl, Handler.callIndirect]
    dsimp only
    rw [state_bind_run, Cpu.codeByte_dropRep, if_pos hregister, Cpu.get_dropRep,
      Cpu.eip_dropRep]
    rfl
  | slot hopcode hform =>
    rw [dispatch_run_dropRep linkage (by rw [hopcode, hindirect]) rfl, Handler.callIndirect]
    dsimp only
    rw [state_bind_run, Cpu.codeByte_dropRep, hform, if_neg (by decide), if_pos (by decide),
      Cpu.codeDword_dropRep, Cpu.memory_dropRep, Cpu.eip_dropRep]

/-- A return goes back to the caller, without a pending prefix. -/
theorem dispatch_of_returns {released : UInt32} (hreturns : cpu.Returns released)
    (linkage : Linkage) : (standard.dispatch linkage).run cpu =
      ⟨.ok (), (cpu.dropRep.returnToCaller released).retire, standard.preamble cpu⟩ := by
  have hhandler (opcode : UInt8) (h : opcode = 0xc2 ∨ opcode = 0xc3) :
      standard.handler? opcode = some .ret := by
    rw [standard_handler?_eq]
    rcases h with rfl | rfl <;> rfl
  cases hreturns with
  | plain hopcode =>
    rw [dispatch_run_dropRep linkage (hhandler _ (.inr hopcode)) rfl, Handler.ret, hopcode]
    change concluded _ ⟨.ok (), cpu.dropRep.returnToCaller 0, []⟩ = _
    rw [concluded_ok, List.append_nil]
  | counted hopcode =>
    rw [dispatch_run_dropRep linkage (hhandler _ (.inl hopcode)) rfl, Handler.ret, hopcode]
    change concluded _ ⟨.ok (), cpu.dropRep.returnToCaller _, []⟩ = _
    rw [concluded_ok, List.append_nil]
    rfl

end InstructionSet

/-! ## The way through the host -/

/-- A push succeeds if its four bytes can be stored, and says what it leaves. -/
theorem Cpu.push?_eq_ok_iff {cpu cpu' : Cpu} {v : UInt32} :
    cpu.push? v = .ok cpu' ↔ cpu.memory.Writable (cpu.esp - 4) 4 ∧
      cpu' = { cpu with memory := cpu.memory.store32 (cpu.esp - 4) v }.set .esp (cpu.esp - 4) := by
  constructor
  · intro h
    unfold push? at h
    split at h
    · cases h
    · rename_i memory hwrite
      have hstack := Memory.writable_of_write32 hwrite
      rw [Memory.write32_of_writable hstack] at hwrite
      obtain rfl := Except.ok.inj hwrite
      exact ⟨hstack, (Except.ok.inj h).symm⟩
  · rintro ⟨hstack, rfl⟩
    rw [push?, Memory.write32_of_writable hstack]

/-- A call that can push its return address goes on from there. -/
theorem enterCall_run {cpu : Cpu} (hstack : cpu.memory.Writable (cpu.esp - 4) 4)
    (linkage : Linkage) (target next : UInt32) :
    (enterCall linkage target next).run cpu =
      ((match linkage.imports.name? target with
        | none => jump target
        | some symbol => do
          match ← consult symbol linkage.emulators with
          | none =>
            emit (.unserved symbol target)
            jump target
          | some (emulator, result) =>
            emit (.served emulator.name symbol result)
            update (·.returnFromHost result (emulator.cleanup symbol)) :
        Exec Fault Unit)).run (cpu.called next) := by
  have hpush : (push next).run cpu = ⟨.ok (),
      { cpu with memory := cpu.memory.store32 (cpu.esp - 4) next }.set .esp (cpu.esp - 4), []⟩ := by
    rw [push, attempt_run, Cpu.push?_eq_ok_iff.mpr ⟨hstack, rfl⟩]
    rfl
  rw [enterCall, bind_run, hpush]
  rfl

/-- A registry without the symbol does not answer. -/
theorem Registry.answer?_eq_none {symbol : String} {registry : Registry}
    (h : registry.table.contains symbol = false) (cpu : Cpu) :
    registry.emulator.answer? symbol cpu = none := by
  have hfunction : registry.table.function? symbol = none := by
    rw [FunctionTable.contains, ← Bool.not_eq_true, Std.ExtTreeMap.contains_iff_mem] at h
    exact Std.ExtTreeMap.getElem?_eq_none h
  change registry.table.invoke? symbol cpu = none
  rw [FunctionTable.invoke?, hfunction]
  rfl

/-- A registry with the symbol answers. -/
theorem Registry.exists_answer {symbol : String} {registry : Registry}
    (h : registry.table.contains symbol = true) (cpu : Cpu) :
    ∃ reply, registry.emulator.answer? symbol cpu = some reply := by
  rw [FunctionTable.contains, Std.ExtTreeMap.contains_iff_mem] at h
  have hfunction := Std.ExtTreeMap.getElem?_eq_some_getElem h
  exact ⟨_, Option.map_eq_some_iff.mpr ⟨_, hfunction, rfl⟩⟩

/-- A registry without the symbol is asked in vain, and leaves no trace of it. -/
theorem consult_run_cons_of_not_contains {symbol : String} {registry : Registry}
    (h : registry.table.contains symbol = false) (others : List Emulator) (cpu : Cpu) :
    (consult symbol (registry.emulator :: others)).run cpu = (consult symbol others).run cpu := by
  rw [consult, state_bind_run]
  simp only [Registry.answer?_eq_none h]
  rfl

/-- An emulator that answers is the last one asked. -/
theorem consult_run_cons_of_answer {symbol : String} {emulator : Emulator} {cpu : Cpu}
    {reply : HostReply} (h : emulator.answer? symbol cpu = some reply) (others : List Emulator) :
    (consult symbol (emulator :: others)).run cpu =
      ⟨.ok (some (emulator, reply.result)), reply.cpu, reply.events⟩ := by
  rw [consult, state_bind_run]
  simp only [h, bind_run, emitAll_run, update_run, pure_run, List.append_nil]

/-- A call of an address without a name enters the guest there. -/
theorem enterCall_run_unnamed {cpu : Cpu} {linkage : Linkage} {target : UInt32}
    (hunnamed : linkage.imports.name? target = none)
    (hstack : cpu.memory.Writable (cpu.esp - 4) 4) (next : UInt32) :
    (enterCall linkage target next).run cpu = ⟨.ok (), (cpu.called next).jump target, []⟩ := by
  rw [enterCall_run hstack]
  simp only [hunnamed]
  rfl

/-- A call of an address with a name is answered by the first emulator, if that has an answer to
the name. -/
theorem enterCall_run_answered {cpu : Cpu} {imports : Imports} {target next : UInt32}
    {symbol : String} (hsymbol : imports.name? target = some symbol) {emulator : Emulator}
    {reply : HostReply} (hanswer : emulator.answer? symbol (cpu.called next) = some reply)
    (hstack : cpu.memory.Writable (cpu.esp - 4) 4) (others : List Emulator) :
    (enterCall { imports, emulators := emulator :: others } target next).run cpu =
      ⟨.ok (), reply.cpu.returnFromHost reply.result (emulator.cleanup symbol),
        reply.events ++ [.served emulator.name symbol reply.result]⟩ := by
  rw [enterCall_run hstack]
  simp only [hsymbol]
  rw [bind_run, consult_run_cons_of_answer hanswer]
  rfl

/-- **The first registry with the symbol answers**, and no other one leaves a trace. -/
theorem consult_registries_of_answer {symbol : String} {registries : List Registry}
    {registry : Registry} {cpu : Cpu} {reply : HostReply}
    (hfirst : registries.find? (·.table.contains symbol) = some registry)
    (hanswer : registry.emulator.answer? symbol cpu = some reply) :
    (consult symbol (registries.map Registry.emulator)).run cpu =
      ⟨.ok (some (registry.emulator, reply.result)), reply.cpu, reply.events⟩ := by
  induction registries with
  | nil => cases hfirst
  | cons first others ih =>
    rw [List.find?_cons] at hfirst
    rw [List.map_cons]
    cases hcontains : first.table.contains symbol with
    | false =>
      -- the table does not have the symbol, so the search and the consultation both go on
      rw [hcontains] at hfirst
      rw [consult_run_cons_of_not_contains hcontains, ih hfirst]
    | true =>
      rw [hcontains] at hfirst
      obtain rfl : first = registry := Option.some.inj hfirst
      rw [consult_run_cons_of_answer hanswer]

/-- A typed function of the registry that answers is given the arguments that the stack holds;
nothing else is run, and the state stays as it is. -/
theorem consult_registries {symbol : String} {registries : List Registry} {registry : Registry}
    {parameters : List ParamType} {body : List Param → UInt32 × List Event}
    (hfirst : registries.find? (·.table.contains symbol) = some registry)
    (hfunction : registry.table.function? symbol = some (.typed parameters body)) (cpu : Cpu) :
    (consult symbol (registries.map Registry.emulator)).run cpu =
      ⟨.ok (some (registry.emulator, (body (cpu.arguments parameters)).1)), cpu,
        (body (cpu.arguments parameters)).2⟩ := by
  have hanswer : registry.emulator.answer? symbol cpu =
      some ⟨(body (cpu.arguments parameters)).1, cpu, (body (cpu.arguments parameters)).2⟩ := by
    change registry.table.invoke? symbol cpu = _
    rw [FunctionTable.invoke?, hfunction]
    rfl
  rw [consult_registries_of_answer hfirst hanswer]

/-- The frame of a slot is gone, whether it was the only one noted there or not. -/
theorem erase_insert_frames (frames : Std.ExtTreeMap UInt32 UInt32) (slot next : UInt32) :
    (frames.insert slot next).erase slot = frames.erase slot := by
  ext other
  simp only [Std.ExtTreeMap.getElem?_erase, Std.ExtTreeMap.getElem?_insert]
  grind

/-- A return from the called state, wherever it has gone on from there, leads back to the caller:
the stack is as it was before the call, less what is cleaned up. -/
theorem Cpu.returnToCaller_called (cpu : Cpu) (next target cleanup : UInt32) :
    ((cpu.called next).jump target).returnToCaller cleanup =
      { cpu with
        registers := { cpu.registers with esp := cpu.esp + cleanup }
        eip := next
        memory := cpu.memory.store32 (cpu.esp - 4) next
        frames := cpu.frames.erase (cpu.esp - 4) } := by
  -- the frame just noted is the one that is released, and the dword just pushed the one popped
  have hesp : cpu.esp - 4 + 4 = cpu.esp := by grind
  have hnext : (cpu.memory.store32 (cpu.esp - 4) next).read32 (cpu.esp - 4) = next := by simp
  simp only [returnToCaller, called, Cpu.set, Registers.set, releaseFrame, pop, jump]
  rw [erase_insert_frames, hesp, hnext]

/-- A host answers from the called state to the caller: the stack is as it was before the
call, less the arguments that the host cleans up. -/
theorem Cpu.returnFromHost_called (cpu : Cpu) (next result cleanup : UInt32) :
    (cpu.called next).returnFromHost result cleanup =
      { cpu with
        registers := { cpu.registers with eax := result, esp := cpu.esp + cleanup }
        eip := next
        memory := cpu.memory.store32 (cpu.esp - 4) next
        frames := cpu.frames.erase (cpu.esp - 4) } :=
  (cpu.set .eax result).returnToCaller_called next cpu.eip cleanup

/-- In the called state the arguments are those above the return address, from the caller's
stack pointer on. -/
theorem Cpu.arguments_called (cpu : Cpu) (next : UInt32) (parameters : List ParamType) :
    (cpu.called next).arguments parameters = parameters.mapIdx fun i type =>
      Param.ofDword (cpu.called next).memory
        ((cpu.called next).memory.read32 (cpu.esp + UInt32.ofNat (4 * i))) type := by
  have haddress (i : Nat) :
      (cpu.called next).esp + UInt32.ofNat (4 * (i + 1)) = cpu.esp + UInt32.ofNat (4 * i) := by
    change cpu.esp - 4 + UInt32.ofNat (4 * i + 4) = _
    rw [UInt32.ofNat_add]
    grind
  simp only [arguments, haddress]

/-- Unless there are so many that the stack wraps around, the arguments are the caller's. -/
theorem Cpu.read32_called (cpu : Cpu) (next : UInt32) {i : Nat} (hi : 4 * i + 8 ≤ 0x100000000) :
    (cpu.called next).memory.read32 (cpu.esp + UInt32.ofNat (4 * i)) =
      cpu.memory.read32 (cpu.esp + UInt32.ofNat (4 * i)) := by
  -- the two dwords are apart both ways around the address space
  have habove : cpu.esp + UInt32.ofNat (4 * i) - (cpu.esp - 4) = UInt32.ofNat (4 * i + 4) := by
    rw [UInt32.ofNat_add]
    grind
  have hbelow : cpu.esp - 4 - (cpu.esp + UInt32.ofNat (4 * i)) = - UInt32.ofNat (4 * i + 4) := by
    rw [UInt32.ofNat_add]
    grind
  refine cpu.memory.read32_store32_of_le _ next ?_ ?_
  · rw [habove, UInt32.le_iff_toNat_le, UInt32.toNat_ofNat']
    simp only [UInt32.reduceToNat]
    omega
  · rw [hbelow, UInt32.le_iff_toNat_le, UInt32.toNat_neg, UInt32.toNat_ofNat']
    simp only [UInt32.reduceToNat, UInt32.size]
    omega

/-- Under `stdcall` a function takes four bytes for each parameter off the stack. -/
theorem Convention.calleeCleanup_stdcall (n : Nat) :
    stdcall.calleeCleanup n = UInt32.ofNat (4 * n) := by
  rw [calleeCleanup, UInt32.ofNat_mul, UInt32.mul_comm]
  rfl

/-- The bytes that a typed function takes off the stack. -/
theorem Registry.cleanup_emulator {registry : Registry} {symbol : String}
    {parameters : List ParamType} {body : List Param → UInt32 × List Event}
    (hfunction : registry.table.function? symbol = some (.typed parameters body)) :
    registry.emulator.cleanup symbol =
      match registry.table.convention with
      | .stdcall => UInt32.ofNat (4 * parameters.length)
      | .cdecl => 0 := by
  change registry.table.convention.calleeCleanup ((registry.table.arity? symbol).getD 0) = _
  rw [FunctionTable.arity?, hfunction]
  change registry.table.convention.calleeCleanup parameters.length = _
  cases registry.table.convention with
  | cdecl => rfl
  | stdcall => exact Convention.calleeCleanup_stdcall parameters.length

/-- A call of an imported symbol that a typed function answers. -/
theorem enterCall_run_served {cpu : Cpu} {imports : Imports} {target : UInt32} {symbol : String}
    (hsymbol : imports.name? target = some symbol)
    {registries : List Registry} {registry : Registry}
    (hfirst : registries.find? (·.table.contains symbol) = some registry)
    {parameters : List ParamType} {body : List Param → UInt32 × List Event}
    (hfunction : registry.table.function? symbol = some (.typed parameters body))
    (hstack : cpu.memory.Writable (cpu.esp - 4) 4) {next : UInt32} {answer : UInt32 × List Event}
    (hanswer : body ((cpu.called next).arguments parameters) = answer) :
    (enterCall { imports, emulators := registries.map Registry.emulator } target next).run cpu =
      ⟨.ok (),
        (cpu.called next).returnFromHost answer.1 (registry.emulator.cleanup symbol),
        answer.2 ++ [.served registry.name symbol answer.1]⟩ := by
  rw [enterCall_run hstack]
  simp only [hsymbol]
  rw [bind_run, consult_registries hfirst hfunction, hanswer]
  rfl

/-! ## The whole call -/

namespace InstructionSet

section Dispatch

variable {cpu : Cpu} {target next : UInt32} (hcalls : cpu.Calls target next)
  (hstack : cpu.memory.Writable (cpu.esp - 4) 4)

include hcalls hstack

/-- A call of an address without a name enters the guest, whatever the emulators would answer. -/
theorem dispatch_unnamed {linkage : Linkage} (hunnamed : linkage.imports.name? target = none) :
    (standard.dispatch linkage).run cpu =
      ⟨.ok (), ((cpu.dropRep.called next).jump target).retire, standard.preamble cpu⟩ := by
  have hstack' : cpu.dropRep.memory.Writable (cpu.dropRep.esp - 4) 4 := hstack
  rw [dispatch_of_calls hcalls, enterCall_run_unnamed hunnamed hstack', concluded_ok,
    List.append_nil]

/-- A call of an address with a name is the first emulator's, if that has an answer to the name. -/
theorem dispatch_answered {imports : Imports} {symbol : String}
    (hsymbol : imports.name? target = some symbol) {emulator : Emulator} {reply : HostReply}
    (hanswer : emulator.answer? symbol (cpu.dropRep.called next) = some reply)
    (others : List Emulator) :
    (standard.dispatch { imports, emulators := emulator :: others }).run cpu =
      ⟨.ok (), (reply.cpu.returnFromHost reply.result (emulator.cleanup symbol)).retire,
        standard.preamble cpu ++
          (reply.events ++ [.served emulator.name symbol reply.result])⟩ := by
  have hstack' : cpu.dropRep.memory.Writable (cpu.dropRep.esp - 4) 4 := hstack
  rw [dispatch_of_calls hcalls, enterCall_run_answered hsymbol hanswer hstack', concluded_ok]

end Dispatch

/-- **A call that a typed host function answers, from end to end.** Of the registries that the
program is linked to, the first one with the symbol at the target has a typed function for it,
and the return address can be pushed. Then the dispatch succeeds, and

* what happens is what the function makes happen, between the notes of the dispatcher and of
  the call: no other function is run, and this one is run once, at the values that its
  parameters make of the dwords from the caller's stack pointer on;
* EAX is its result, EIP the address after the call, and ESP is past the arguments under
  `stdcall` and where it was under `cdecl`; of registers, flags, halted flag and protections
  nothing else has changed, and of the memory no byte but those of the return address, which
  is stored below the caller's stack pointer;
* the frame of that slot is gone, and the other frames are the ones from before. -/
theorem dispatch_served {cpu : Cpu} {target next : UInt32} (hcalls : cpu.Calls target next)
    {imports : Imports} {symbol : String} (hsymbol : imports.name? target = some symbol)
    {registries : List Registry} {registry : Registry}
    (hfirst : registries.find? (·.table.contains symbol) = some registry)
    {parameters : List ParamType} {body : List Param → UInt32 × List Event}
    (hfunction : registry.table.function? symbol = some (.typed parameters body))
    (hstack : cpu.memory.Writable (cpu.esp - 4) 4) :
    let memory := cpu.memory.store32 (cpu.esp - 4) next
    let argument (i : Nat) := memory.read32 (cpu.esp + UInt32.ofNat (4 * i))
    let answer := body (parameters.mapIdx fun i type => Param.ofDword memory (argument i) type)
    let cleanup :=
      match registry.table.convention with
      | .stdcall => UInt32.ofNat (4 * parameters.length)
      | .cdecl => 0
    (standard.dispatch { imports, emulators := registries.map Registry.emulator }).run cpu =
        ⟨.ok (),
          { cpu with
            registers := { cpu.registers with eax := answer.1, esp := cpu.esp + cleanup }
            eip := next
            memory
            rep := none
            retired := cpu.retired + 1
            frames := cpu.frames.erase (cpu.esp - 4) },
          standard.preamble cpu ++ answer.2 ++ [.served registry.name symbol answer.1]⟩ ∧
      (∀ i, 4 * i + 8 ≤ 0x100000000 →
        argument i = cpu.memory.read32 (cpu.esp + UInt32.ofNat (4 * i))) ∧
      memory.read32 (cpu.esp - 4) = next ∧
      (∀ a, 4 ≤ a - (cpu.esp - 4) → memory.read8 a = cpu.memory.read8 a) ∧
      ∀ a, memory.protectionAt a = cpu.memory.protectionAt a := by
  intro memory argument answer cleanup
  refine ⟨?_, fun i hi => cpu.read32_called next hi, by simp [memory],
    fun a ha => Memory.read8_store32_of_le _ _ _ ha, fun a => rfl⟩
  have hanswer : body ((cpu.dropRep.called next).arguments parameters) = answer := by
    rw [Cpu.arguments_called]
    rfl
  have hstack' : cpu.dropRep.memory.Writable (cpu.dropRep.esp - 4) 4 := hstack
  have hserved := enterCall_run_served hsymbol hfirst hfunction hstack' hanswer
  rw [Cpu.returnFromHost_called, Registry.cleanup_emulator hfunction] at hserved
  rw [dispatch_of_calls hcalls, hserved, List.append_assoc]
  rfl

/-- A registry with one function, which adds its two arguments and reports that it was called. -/
def adder : Registry where
  name := "adder"
  table := ({ convention := .stdcall } : FunctionTable).insert "Add"
    (.typed [.uint32, .int32] fun arguments =>
      (arguments.foldl (fun sum p => sum + p.toUInt32) 0, [.hostCalled "Add" (some arguments)]))

/-- A processor about to call through the slot at 0x2000, with the dwords 5 and 7 at the bottom
of the address space and the stack pointer there: the return address goes to the top of it. -/
def addCall : Cpu where
  registers := { esp := 0 }
  eip := 0x1000
  rep := some .repne
  memory := (((({} : Memory).storeBytes 0x1000 [0xff, 0x15, 0x00, 0x20, 0x00, 0x00]).store32 0x2000
    0x7ff00000).store32 0 5).store32 4 7

theorem dispatch_served_add :
    let outcome := (standard.dispatch
      { imports := .ofList [("Add", 0x7ff00000)]
        emulators := [⟨"kernel32", Win32.kernel32Table⟩, adder].map Registry.emulator }).run addCall
    outcome.result = .ok () ∧ outcome.cpu.registers = { eax := 12, esp := 8 } ∧
      outcome.cpu.eip = 0x1006 ∧ outcome.cpu.memory.read32 0xfffffffc = 0x1006 ∧
      .hostCalled "Add" (some [.uint32 5, .int32 7]) ∈ outcome.events := by
  have hopcode : addCall.opcode = 0xff := by
    simp [addCall, Cpu.opcode, Memory.read8_store32, Memory.storeBytes, Memory.read8_store8]
  have hform : addCall.codeByte 1 = 0x15 := by
    simp [addCall, Cpu.codeByte, Memory.read8_store32, Memory.storeBytes, Memory.read8_store8]
  have hslot : addCall.codeDword 2 = 0x2000 := by
    simp [addCall, Cpu.codeDword, Memory.read32, Memory.read8_store32, Memory.storeBytes,
      Memory.read8_store8]
    decide
  have htarget : addCall.memory.read32 (addCall.codeDword 2) = 0x7ff00000 := by
    rw [hslot]
    simp [addCall, Memory.read32, Memory.read8_store32, Memory.storeBytes]
  have hcalls : addCall.Calls 0x7ff00000 0x1006 := htarget ▸ .slot hopcode hform
  have hstack : addCall.memory.Writable (addCall.esp - 4) 4 := by
    intro a _
    simp [addCall, Memory.storeBytes]
  have hsymbol : (Imports.ofList [("Add", 0x7ff00000)]).name? 0x7ff00000 = some "Add" := by rfl
  have hfirst : [⟨"kernel32", Win32.kernel32Table⟩, adder].find? (·.table.contains "Add") =
      some adder := by rfl
  obtain ⟨hrun, hargument, hreturn, -, -⟩ := dispatch_served hcalls hsymbol hfirst rfl hstack
  have hfive : addCall.memory.read32 (addCall.esp + UInt32.ofNat (4 * 0)) = 5 := by
    simp [addCall, Memory.read32, Memory.read8_store32]
    decide
  have hseven : addCall.memory.read32 (addCall.esp + UInt32.ofNat (4 * 1)) = 7 :=
    Memory.read32_store32 _ 4 7
  have hvalues : [ParamType.uint32, ParamType.int32].mapIdx (fun i type =>
      Param.ofDword (addCall.memory.store32 (addCall.esp - 4) 0x1006)
        ((addCall.memory.store32 (addCall.esp - 4) 0x1006).read32
          (addCall.esp + UInt32.ofNat (4 * i))) type) = [.uint32 5, .int32 7] := by
    have h0 := (hargument 0 (by decide)).trans hfive
    have h1 := (hargument 1 (by decide)).trans hseven
    dsimp only at h0 h1
    simp only [List.mapIdx_cons, List.mapIdx_nil, Nat.zero_add, h0, h1]
    rfl
  rw [hrun]
  dsimp only
  rw [hvalues]
  refine ⟨rfl, rfl, rfl, hreturn, by simp⟩

end InstructionSet

end Ia32
