import Ia32.Cpu.Lemmas
import Ia32.Host.Win32
import Ia32.Proofs.Dispatch

/-!
# Handlers, step by step

All that a handler does to the processor is a sequence of a few steps: registers, EIP, the
prefix, flags and frames are set, the processor is halted, and bytes and dwords are stored
through `Memory.write8` and `Memory.write32`. Only what the emulators do comes on top.

* `Permits R`: the relation `R` on states allows for each of these steps. `PermitsSets R` has the
  steps of handlers that store nothing, and `PermitsMoves R` those of most handlers;
  `PermitsPlain R` leaves out the step that only calls and returns take, and `PermitsCalls R` those
  that they do not take.
* `permitsMoves_keeps`: most steps keep most parts of the state.
* `setHandlers_within`, `moveHandlers_within`, `plainHandlers_within`: what allows for these steps
  allows for every handler that is made of them.
* `standardHandlers_within`: **what allows for every step allows for every handler**, as long
  as the emulators keep to it too.
-/

namespace Ia32

open Exec

/-- A relation on states that allows for setting registers and EIP. -/
structure PermitsSets (R : Cpu → Cpu → Prop) : Prop where
  set : ∀ cpu r v, R cpu (cpu.set r v)
  jump : ∀ cpu a, R cpu (cpu.jump a)

/-- A relation on states that allows for the steps that most handlers are made of: registers and
EIP are set, bytes and dwords are stored. -/
structure PermitsMoves (R : Cpu → Cpu → Prop) : Prop extends PermitsSets R where
  write8 : ∀ {cpu : Cpu} {a b memory}, cpu.memory.write8 a b = .ok memory →
    R cpu { cpu with memory }
  write32 : ∀ {cpu : Cpu} {a v memory}, cpu.memory.write32 a v = .ok memory →
    R cpu { cpu with memory }

/-- A relation on states that allows for each step that handlers are made of, unless it notes or
releases a frame. -/
structure PermitsPlain (R : Cpu → Cpu → Prop) : Prop extends PermitsMoves R where
  rep : ∀ cpu rep, R cpu { cpu with rep }
  compare : ∀ cpu l r, R cpu { cpu with flags := cpu.flags.compare l r }
  direction : ∀ cpu direction, R cpu { cpu with flags := { cpu.flags with direction } }
  halt : ∀ cpu, R cpu { cpu with halted := true }

/-- A relation on states that allows for each step that calls and returns are made of. -/
structure PermitsCalls (R : Cpu → Cpu → Prop) : Prop extends PermitsMoves R where
  frames : ∀ cpu frames, R cpu { cpu with frames }

/-- A relation on states that allows for each step that handlers are made of. -/
structure Permits (R : Cpu → Cpu → Prop) : Prop extends PermitsPlain R, PermitsCalls R

/-- A part of the state is the same in both states. -/
def Cpu.Keeps {α : Type} (part : Cpu → α) (cpu cpu' : Cpu) : Prop := part cpu' = part cpu

instance {α : Type} (part : Cpu → α) : IsPreorder Cpu (Cpu.Keeps part) where
  refl _ := rfl
  trans _ _ _ h h' := h'.trans h

/-- Setting registers and EIP keeps each part of the state that is not made of them. -/
theorem permitsSets_keeps {α : Type} {part : Cpu → α}
    (h : ∀ cpu registers eip, part { cpu with registers, eip } = part cpu) :
    PermitsSets (Cpu.Keeps part) where
  set cpu _ _ := h cpu _ cpu.eip
  jump cpu a := h cpu cpu.registers a

/-- Moves keep each part of the state that is not made of registers, EIP and memory. -/
theorem permitsMoves_keeps {α : Type} {part : Cpu → α}
    (h : ∀ cpu registers eip memory, part { cpu with registers, eip, memory } = part cpu) :
    PermitsMoves (Cpu.Keeps part) where
  toPermitsSets := permitsSets_keeps fun cpu registers eip => h cpu registers eip cpu.memory
  write8 {cpu} _ _ memory _ := h cpu cpu.registers cpu.eip memory
  write32 {cpu} _ _ memory _ := h cpu cpu.registers cpu.eip memory

/-- What the emulator does to a state stays within `R`, whether it answers or not. -/
structure Emulator.Within (R : Cpu → Cpu → Prop) (emulator : Emulator) : Prop where
  answer : ∀ symbol cpu reply, emulator.answer? symbol cpu = some reply → R cpu reply.cpu
  decline : ∀ symbol cpu, R cpu (emulator.decline symbol cpu).1

/-- All emulators that the program is linked to stay within `R`. -/
def Linkage.Within (R : Cpu → Cpu → Prop) (linkage : Linkage) : Prop :=
  ∀ emulator ∈ linkage.emulators, emulator.Within R

variable {R : Cpu → Cpu → Prop}

/-! ## Host functions -/

/-- What the function does to a state stays within `R`. A typed function does nothing to it. -/
def HostFunction.Within (R : Cpu → Cpu → Prop) : HostFunction → Prop
  | .typed _ _ => True
  | .variadic body => ∀ cpu, R cpu (body cpu).1

theorem FunctionTable.emulator_within [IsPreorder Cpu R] {table : FunctionTable}
    (h : ∀ symbol f, table.function? symbol = some f → f.Within R)
    (name : String) : (table.emulator name).Within R where
  answer symbol cpu reply hreply := by
    obtain ⟨f, hf, rfl⟩ := Option.map_eq_some_iff.mp hreply
    have hwithin := h symbol f hf
    cases f with
    | typed parameters body => exact refl_of R cpu
    | variadic body => exact hwithin cpu
  decline _ cpu := refl_of R cpu

theorem FunctionTable.function?_insert (table : FunctionTable) (name symbol : String)
    (f : HostFunction) : (table.insert name f).function? symbol =
      if name = symbol then some f else table.function? symbol := by
  simp [function?, insert, Std.ExtTreeMap.getElem?_insert]

namespace Win32

/-- The functions of `kernel32`, from the one entered last to the one entered first. -/
theorem eq_of_kernel32Table {symbol : String} {f : HostFunction}
    (h : kernel32Table.function? symbol = some f) :
    f = .typed [.cString] lstrlenA ∨ f = .typed [] getLastError ∨
      f = .variadic getTickCount ∨ symbol = "ExitProcess" ∧ f = .variadic exitProcess := by
  simp only [kernel32Table, FunctionTable.function?_insert] at h
  split at h
  · exact .inl (Option.some.inj h).symm
  split at h
  · exact .inr (.inl (Option.some.inj h).symm)
  split at h
  · exact .inr (.inr (.inl (Option.some.inj h).symm))
  split at h
  · rename_i hsymbol
    exact .inr (.inr (.inr ⟨hsymbol.symm, (Option.some.inj h).symm⟩))
  · simp [FunctionTable.function?] at h

theorem eq_of_user32Table {symbol : String} {f : HostFunction}
    (h : user32Table.function? symbol = some f) :
    f = .typed [.uint32, .cString, .cString, .uint32] messageBoxA := by
  simp only [user32Table, FunctionTable.function?_insert] at h
  split at h
  · exact (Option.some.inj h).symm
  · simp [FunctionTable.function?] at h

variable [IsPreorder Cpu R]

theorem returnWith_within (hR : PermitsSets R) (cpu : Cpu) (result : UInt32) :
    R cpu (returnWith cpu result) :=
  trans_of R (hR.set cpu _ _) (hR.jump _ _)

/-- Of the emulated functions, the one that halts the processor takes no other step besides. -/
theorem libraries_within_of_sets (hR : PermitsSets R)
    (hhalt : ∀ cpu, R cpu { cpu with halted := true }) :
    ∀ emulator ∈ libraries, emulator.Within R := by
  intro emulator hmem
  simp only [libraries, List.mem_cons, List.not_mem_nil, or_false] at hmem
  rcases hmem with rfl | rfl
  · refine FunctionTable.emulator_within (fun symbol f h => ?_) _
    rcases eq_of_kernel32Table h with rfl | rfl | rfl | ⟨-, rfl⟩
    · trivial
    · trivial
    · exact fun cpu => returnWith_within hR cpu _
    · exact fun cpu => trans_of R (hhalt cpu) (returnWith_within hR _ _)
  · refine FunctionTable.emulator_within (fun symbol f h => ?_) _
    rw [eq_of_user32Table h]
    trivial

/-- The emulated libraries take no other steps than handlers do. -/
theorem libraries_within (hR : Permits R) : ∀ emulator ∈ libraries, emulator.Within R :=
  libraries_within_of_sets hR.toPermitsSets hR.halt

end Win32

/-! ## Steps and what is made of them -/

namespace PermitsSets

variable (hR : PermitsSets R)

include hR

theorem within_set (r : Register) (v : UInt32) : Exec.Within R (Exec.set r v) :=
  fun cpu => hR.set cpu r v

theorem within_jump (a : UInt32) : Exec.Within R (Exec.jump a) := fun cpu => hR.jump cpu a

theorem within_advance (n : UInt32) : Exec.Within R (advance n) := fun cpu => hR.jump cpu _

theorem within_pop : Exec.Within R pop := fun cpu => hR.set cpu _ _

theorem within_jmp (opcode : UInt8) (linkage : Linkage) :
    Exec.Within R (Handler.jmp.execute opcode linkage) := by
  intro cpu
  change R cpu (if opcode = 0xeb then _ else _)
  split
  · exact hR.jump cpu _
  · exact hR.jump cpu _

variable [IsPreorder Cpu R]

theorem within_set_advance (r : Register) (v n : UInt32) :
    Exec.Within R (do Exec.set r v; advance n) :=
  (hR.within_set r v).bind fun _ => hR.within_advance n

/-! ### Block operations -/

theorem finishRepeat (hrep : ∀ cpu rep, R cpu { cpu with rep }) (cpu : Cpu) :
    R cpu cpu.finishRepeat :=
  trans_of R (hrep cpu none) (hR.jump _ _)

theorem countDown (hrep : ∀ cpu rep, R cpu { cpu with rep }) (op : BlockOp) (cpu : Cpu) :
    R cpu (op.countDown cpu) := by
  unfold BlockOp.countDown
  split
  · exact hR.jump _ _
  · have hcounted : R cpu (cpu.set .ecx (cpu.ecx - 1)) := hR.set _ _ _
    dsimp only
    split
    · exact trans_of R hcounted (hR.finishRepeat hrep _)
    · exact hcounted

end PermitsSets

namespace PermitsMoves

variable [IsPreorder Cpu R] (hR : PermitsMoves R)

include hR

theorem within_push (v : UInt32) : Exec.Within R (push v) := by
  refine within_attempt fun cpu cpu' h => ?_
  unfold Cpu.push? at h
  split at h
  · cases h
  · rename_i memory hwrite
    cases h
    exact trans_of R (hR.write32 hwrite) (hR.set _ _ _)

theorem within_write32 (a v : UInt32) : Exec.Within R (Exec.write32 a v) := by
  refine within_attempt fun cpu cpu' h => ?_
  split at h
  · rename_i memory hwrite
    cases h
    exact hR.write32 hwrite
  · cases h

theorem within_push_advance (v n : UInt32) : Exec.Within R (do push v; advance n) :=
  (hR.within_push v).bind fun _ => hR.within_advance n

theorem within_write32_advance (a v n : UInt32) :
    Exec.Within R (do Exec.write32 a v; advance n) :=
  (hR.within_write32 a v).bind fun _ => hR.within_advance n

/-- An element is stored, or compared, before the pointers move. -/
theorem element {op : BlockOp} (hcompare : op = .scanByte →
      ∀ cpu l r, R cpu { cpu with flags := cpu.flags.compare l r })
    {cpu cpu' : Cpu} (h : op.element? cpu = .ok cpu') : R cpu cpu' := by
  cases op with
  | copyByte =>
    obtain ⟨memory, hwrite, rfl⟩ := map_eq_ok_iff.mp h
    exact trans_of R (hR.write8 hwrite) (trans_of R (hR.set _ _ _) (hR.set _ _ _))
  | copyDword =>
    obtain ⟨memory, hwrite, rfl⟩ := map_eq_ok_iff.mp h
    exact trans_of R (hR.write32 hwrite) (trans_of R (hR.set _ _ _) (hR.set _ _ _))
  | fillByte =>
    obtain ⟨memory, hwrite, rfl⟩ := map_eq_ok_iff.mp h
    exact trans_of R (hR.write8 hwrite) (hR.set _ _ _)
  | loadByte =>
    cases h
    exact trans_of R (hR.set _ _ _) (hR.set _ _ _)
  | scanByte =>
    cases h
    exact trans_of R (hcompare rfl _ _ _) (hR.set _ _ _)

end PermitsMoves

namespace PermitsCalls

variable [IsPreorder Cpu R] (hR : PermitsCalls R) (cpu : Cpu)

include hR

/-- A return releases a frame, takes the return address off and goes there. -/
theorem returnToCaller (cleanup : UInt32) : R cpu (cpu.returnToCaller cleanup) := by
  have hreleased : R cpu (cpu.releaseFrame cpu.esp) := hR.frames cpu _
  have hpopped : R cpu (cpu.releaseFrame cpu.esp).pop.2 := trans_of R hreleased (hR.set _ _ _)
  exact trans_of R hpopped (trans_of R (hR.jump _ _) (hR.set _ _ _))

theorem returnFromHost (result cleanup : UInt32) : R cpu (cpu.returnFromHost result cleanup) := by
  have hreleased : R cpu ((cpu.set .eax result).releaseFrame cpu.esp) :=
    trans_of R (hR.set cpu _ _) (hR.frames _ _)
  have hpopped : R cpu ((cpu.set .eax result).releaseFrame cpu.esp).pop.2 :=
    trans_of R hreleased (hR.set _ _ _)
  exact trans_of R hpopped (trans_of R (hR.jump _ _) (hR.set _ _ _))

end PermitsCalls

/-! ## Handlers that neither call nor return -/

namespace Handler

variable [IsPreorder Cpu R]

section Sets

variable (hR : PermitsSets R) (linkage : Linkage) (opcode : UInt8)

include hR

theorem within_leave : Exec.Within R (leave.execute opcode linkage) := by
  refine reads_state.within.bind fun cpu => (hR.within_set _ _).bind fun _ => ?_
  exact hR.within_pop.bind fun _ => hR.within_set_advance _ _ _

theorem within_loadRegister : Exec.Within R (loadRegister.execute opcode linkage) := by
  refine reads_state.within.bind fun cpu => ?_
  dsimp only
  split
  · exact hR.within_set_advance _ _ _
  · refine (reads_operand _).within.bind fun operand => ?_
    exact hR.within_set_advance _ _ _

theorem within_loadFarPointer : Exec.Within R (loadFarPointer.execute opcode linkage) := by
  refine reads_state.within.bind fun cpu => ?_
  dsimp only
  split
  · exact (reads_fail _).within
  · refine (reads_operand _).within.bind fun operand => ?_
    exact hR.within_set_advance _ _ _

theorem within_deviceTransfer : Exec.Within R (deviceTransfer.execute opcode linkage) := by
  have hsetAl : Exec.Within R (update (·.setAl 0) : Exec Fault Unit) := fun cpu => hR.set cpu _ _
  refine reads_state.within.bind fun cpu => ?_
  split
  · exact (within_emit _).bind fun _ => hsetAl.bind fun _ => hR.within_advance 1
  · exact (within_emit _).bind fun _ => hR.within_advance 1

theorem within_repeatPrefix (hrep : ∀ cpu rep, R cpu { cpu with rep }) :
    Exec.Within R (repeatPrefix.execute opcode linkage) :=
  fun cpu => trans_of R (hrep cpu _) (hR.jump _ _)

theorem within_halt (hhalt : ∀ cpu, R cpu { cpu with halted := true }) :
    Exec.Within R (halt.execute opcode linkage) := by
  refine reads_state.within.bind fun _ => (within_emit _).bind fun _ cpu => ?_
  exact trans_of R (hhalt cpu) (hR.jump _ _)

theorem within_directionFlag
    (hdirection : ∀ cpu direction, R cpu { cpu with flags := { cpu.flags with direction } }) :
    Exec.Within R (directionFlag.execute opcode linkage) :=
  fun cpu => trans_of R (hdirection cpu _) (hR.jump _ _)

end Sets

variable (hR : PermitsMoves R) (linkage : Linkage) (opcode : UInt8)

include hR

theorem within_storeRegister : Exec.Within R (storeRegister.execute opcode linkage) := by
  refine reads_state.within.bind fun cpu => ?_
  dsimp only
  split
  · exact hR.within_set_advance _ _ _
  · refine (reads_operand _).within.bind fun operand => ?_
    exact hR.within_write32_advance _ _ _

/-- Flags are compared by one of the operations only. -/
theorem within_blockOperation (hrep : ∀ cpu rep, R cpu { cpu with rep })
    (hcompare : BlockOp.ofOpcode? opcode = some .scanByte →
      ∀ cpu l r, R cpu { cpu with flags := cpu.flags.compare l r }) :
    Exec.Within R (blockOperation.execute opcode linkage) := by
  refine reads_state.within.bind fun cpu => ?_
  split
  · exact fun cpu => hR.finishRepeat hrep cpu
  · cases hop : BlockOp.ofOpcode? opcode with
    | none => exact (reads_fail _).within
    | some op =>
      have hscan (h : op = .scanByte) : BlockOp.ofOpcode? opcode = some .scanByte := h ▸ hop
      refine Exec.Within.bind (within_attempt fun cpu cpu' h => ?_) fun _ cpu => ?_
      · exact hR.element (fun h => hcompare (hscan h)) (mapError_eq_ok_iff.mp h)
      · exact hR.countDown hrep op cpu

end Handler

namespace InstructionSet

/-- The handlers of instructions that neither call nor return. -/
def plainHandlers : List Handler :=
  [.padding, .popSegment, .segmentMove, .pushRegister, .popRegister, .pushDword, .pushByte,
    .storeRegister, .loadRegister, .nop, .signToEdx, .loadEax, .storeEax, .blockOperation,
    .loadImmediate, .loadFarPointer, .leave, .deviceTransfer, .jmp, .repeatPrefix, .halt,
    .directionFlag]

/-- Those of them that only set registers and EIP. -/
def setHandlers : List Handler :=
  [.padding, .popSegment, .segmentMove, .popRegister, .loadRegister, .nop, .signToEdx, .loadEax,
    .loadImmediate, .loadFarPointer, .leave, .deviceTransfer, .jmp]

/-- Those of them that only set registers and EIP and store. -/
def moveHandlers : List Handler :=
  [.padding, .popSegment, .segmentMove, .pushRegister, .popRegister, .pushDword, .pushByte,
    .storeRegister, .loadRegister, .nop, .signToEdx, .loadEax, .storeEax, .loadImmediate,
    .loadFarPointer, .leave, .deviceTransfer, .jmp]

/-- All other handlers are those of calls and returns. -/
theorem plain_or_of_mem_standardHandlers {handler : Handler} (h : handler ∈ standardHandlers) :
    handler ∈ plainHandlers ∨
      handler = .callRelative ∨ handler = .callIndirect ∨ handler = .ret := by
  simp only [standardHandlers, plainHandlers, List.mem_cons, List.not_mem_nil, or_false] at h ⊢
  grind

/-- Besides moves there are block operations, their prefixes, HLT, and CLD and STD. -/
theorem move_or_of_mem_plainHandlers {handler : Handler} (h : handler ∈ plainHandlers) :
    handler ∈ moveHandlers ∨ handler = .blockOperation ∨ handler = .repeatPrefix ∨
      handler = .halt ∨ handler = .directionFlag := by
  simp only [plainHandlers, moveHandlers, List.mem_cons, List.not_mem_nil, or_false] at h ⊢
  grind

/-- The moves that store are those of PUSH, and those of MOV to memory. -/
theorem set_or_of_mem_moveHandlers {handler : Handler} (h : handler ∈ moveHandlers) :
    handler ∈ setHandlers ∨ handler = .pushRegister ∨ handler = .pushDword ∨
      handler = .pushByte ∨ handler = .storeRegister ∨ handler = .storeEax := by
  simp only [moveHandlers, setHandlers, List.mem_cons, List.not_mem_nil, or_false] at h ⊢
  grind

open Handler

/-- What allows for setting registers and EIP allows for every handler that does nothing else. -/
theorem setHandlers_within [IsPreorder Cpu R] (hR : PermitsSets R) (linkage : Linkage) :
    ∀ handler ∈ setHandlers, ∀ opcode, Exec.Within R (handler.execute opcode linkage) := by
  intro handler hmem opcode
  simp only [setHandlers, List.mem_cons, List.not_mem_nil, or_false] at hmem
  -- in the order in which the handlers are registered
  rcases hmem with rfl | rfl | rfl | rfl | rfl | rfl | rfl | rfl | rfl | rfl | rfl | rfl | rfl
  · exact hR.within_advance 1
  · exact hR.within_advance 1
  · exact hR.within_advance 2
  · exact hR.within_pop.bind fun _ => hR.within_set_advance _ _ _
  · exact within_loadRegister hR linkage opcode
  · exact hR.within_advance 1
  · exact reads_state.within.bind fun _ => hR.within_set_advance _ _ _
  · exact reads_state.within.bind fun _ => hR.within_set_advance _ _ _
  · exact reads_state.within.bind fun _ => hR.within_set_advance _ _ _
  · exact within_loadFarPointer hR linkage opcode
  · exact within_leave hR linkage opcode
  · exact within_deviceTransfer hR linkage opcode
  · exact hR.within_jmp opcode linkage

/-- What allows for moves allows for every handler that is made of them. -/
theorem moveHandlers_within [IsPreorder Cpu R] (hR : PermitsMoves R) (linkage : Linkage) :
    ∀ handler ∈ moveHandlers, ∀ opcode, Exec.Within R (handler.execute opcode linkage) := by
  intro handler hmem opcode
  rcases set_or_of_mem_moveHandlers hmem with hset | rfl | rfl | rfl | rfl | rfl
  · exact setHandlers_within hR.toPermitsSets linkage handler hset opcode
  · exact reads_state.within.bind fun _ => hR.within_push_advance _ _
  · exact reads_state.within.bind fun _ => hR.within_push_advance _ _
  · exact reads_state.within.bind fun _ => hR.within_push_advance _ _
  · exact within_storeRegister hR linkage opcode
  · exact reads_state.within.bind fun _ => hR.within_write32_advance _ _ _

/-- What allows for the plain steps allows for every handler that neither calls nor returns. -/
theorem plainHandlers_within [IsPreorder Cpu R] (hR : PermitsPlain R) (linkage : Linkage) :
    ∀ handler ∈ plainHandlers, ∀ opcode, Exec.Within R (handler.execute opcode linkage) := by
  intro handler hmem opcode
  have hmoves : PermitsMoves R := hR.toPermitsMoves
  have hsets : PermitsSets R := hR.toPermitsSets
  rcases move_or_of_mem_plainHandlers hmem with hmove | rfl | rfl | rfl | rfl
  · exact moveHandlers_within hmoves linkage handler hmove opcode
  · exact within_blockOperation hmoves linkage opcode hR.rep fun _ => hR.compare
  · exact within_repeatPrefix hsets linkage opcode hR.rep
  · exact within_halt hsets linkage opcode hR.halt
  · exact within_directionFlag hsets linkage opcode hR.direction

end InstructionSet

/-! ## Calls -/

variable [IsPreorder Cpu R]

theorem within_consult (symbol : String) {emulators : List Emulator}
    (h : ∀ emulator ∈ emulators, emulator.Within R) :
    Exec.Within R (consult symbol emulators) := by
  induction emulators with
  | nil => exact (reads_pure none).within
  | cons emulator others ih =>
    obtain ⟨hemulator, hothers⟩ := List.forall_mem_cons.mp h
    intro cpu
    unfold consult
    rw [state_bind_run]
    cases hanswer : emulator.answer? symbol cpu with
    | some reply => exact hemulator.answer symbol cpu reply hanswer
    | none =>
      -- those asked after it find the state that it has left
      exact trans_of R (hemulator.decline symbol cpu) (ih hothers _)

section Calls

variable {linkage : Linkage} (hR : PermitsCalls R)

include hR

/-- A call stores its return address and notes its frame; the rest is up to the emulators. -/
theorem within_enterCall (hlinkage : linkage.Within R) (target returnAddress : UInt32) :
    Exec.Within R (enterCall linkage target returnAddress) := by
  have hrecord : Exec.Within R (update (·.recordFrame returnAddress) : Exec Fault Unit) :=
    fun cpu => hR.frames cpu _
  refine (hR.within_push returnAddress).bind fun _ => hrecord.bind fun _ => ?_
  cases linkage.imports.name? target with
  | none => exact hR.within_jump target
  | some symbol =>
    refine (within_consult symbol hlinkage).bind fun answer? => (?_ : Exec.Within R _)
    cases answer? with
    | none => exact (within_emit _).bind fun _ => hR.within_jump target
    | some answer =>
      exact (within_emit _).bind fun _ cpu => hR.returnFromHost cpu _ _

theorem Handler.within_callIndirect (opcode : UInt8) (hlinkage : linkage.Within R) :
    Exec.Within R (callIndirect.execute opcode linkage) := by
  refine reads_state.within.bind fun cpu => ?_
  dsimp only
  split
  · exact within_enterCall hR hlinkage _ _
  · split
    · exact within_enterCall hR hlinkage _ _
    · exact (reads_fail _).within

theorem Handler.within_callRelative (opcode : UInt8) (hlinkage : linkage.Within R) :
    Exec.Within R (callRelative.execute opcode linkage) :=
  reads_state.within.bind fun _ => within_enterCall hR hlinkage _ _

theorem Handler.within_ret (opcode : UInt8) : Exec.Within R (ret.execute opcode linkage) :=
  fun cpu => hR.returnToCaller cpu _

end Calls

/-! ## All handlers -/

namespace InstructionSet

open Handler

variable {linkage : Linkage} (hR : Permits R)

include hR

/-- **What allows for every step allows for every handler.** -/
theorem standardHandlers_within (hlinkage : linkage.Within R) :
    ∀ handler ∈ standardHandlers, ∀ opcode, Exec.Within R (handler.execute opcode linkage) := by
  intro handler hmem opcode
  rcases plain_or_of_mem_standardHandlers hmem with hplain | rfl | rfl | rfl
  · exact plainHandlers_within hR.toPermitsPlain linkage handler hplain opcode
  · exact within_callRelative hR.toPermitsCalls opcode hlinkage
  · exact within_callIndirect hR.toPermitsCalls opcode hlinkage
  · exact within_ret hR.toPermitsCalls opcode

/-- A dispatch drops a prefix, runs a handler, and retires the instruction if it succeeds. -/
theorem dispatch_within (hretire : ∀ cpu, R cpu cpu.retire) (hlinkage : linkage.Within R) :
    Exec.Within R (standard.dispatch linkage) :=
  within_dispatch linkage (fun cpu => hR.rep cpu _) hretire fun opcode handler h =>
    standardHandlers_within hR hlinkage handler (mem_of_standard_handler? h) opcode

end InstructionSet

end Ia32
