import Ia32.Host.Win32
import Ia32.Memory.Lemmas
import Ia32.Proofs.Dispatch

/-!
# Failing instructions are atomic

Every handler does the steps that may fail before those that have an effect, and asks
the emulators only when nothing can fail any more (`standardHandlers_failsFirst`).

* `dispatch_error`: a dispatch that fails leaves the primed state.
* `dispatch_error_again`: the instruction then fails again in the same way.
* `dispatch_atomic`: **an instruction that fails changes nothing**, a repeat prefix that
  it has no use for apart, and has not asked any emulator.
-/

namespace Ia32

open Exec

theorem total_consult (symbol : String) : ∀ emulators, Total (consult symbol emulators)
  | [] => total_pure none
  | emulator :: others => by
    unfold consult
    refine total_state.bind fun cpu => ?_
    cases emulator.answer? symbol cpu with
    | some reply =>
      exact (total_emitAll _).bind fun _ => (total_update _).bind fun _ => total_pure _
    | none =>
      exact (total_emitAll _).bind fun _ => (total_update _).bind fun _ =>
        total_consult symbol others

/-- **Nothing can fail in a call once its return address is pushed.** -/
theorem exists_enterCall_eq (target returnAddress : UInt32) :
    ∃ rest : Linkage → Exec Fault Unit, (∀ linkage, Total (rest linkage)) ∧
      ∀ linkage, enterCall linkage target returnAddress =
        (do push returnAddress; rest linkage) := by
  refine ⟨_, fun linkage => (total_update _).bind fun _ => ?_, fun linkage => rfl⟩
  cases linkage.imports.name? target with
  | none => exact total_update _
  | some symbol =>
    refine (total_consult symbol linkage.emulators).bind fun answer? => ?_
    cases answer? with
    | none => exact (total_emit _).bind fun _ => total_update _
    | some answer => exact (total_emit _).bind fun _ => total_update _

/-- A call can fail only where its return address is pushed. -/
theorem failsFirst_enterCall (target returnAddress : UInt32) :
    FailsFirst fun linkage => enterCall linkage target returnAddress := by
  obtain ⟨rest, htotal, hrest⟩ := exists_enterCall_eq target returnAddress
  rw [funext hrest]
  exact (failsFirst_attempt _).bind fun linkage _ => htotal linkage

/-- A push and the move past the instruction. -/
theorem failsFirst_push_advance (v n : UInt32) :
    FailsFirst fun _ : Linkage => (do push v; advance n) :=
  (failsFirst_attempt _).bind fun _ _ => total_update _

/-- A store and the move past the instruction. -/
theorem failsFirst_write32_advance (a v n : UInt32) :
    FailsFirst fun _ : Linkage => (do write32 a v; advance n) :=
  (failsFirst_attempt _).bind fun _ _ => total_update _

/-- A load and the move past the instruction, which cannot fail. -/
theorem failsFirst_set_advance (r : Register) (v n : UInt32) :
    FailsFirst fun _ : Linkage => (do set r v; advance n) :=
  .of_total fun _ => (total_update _).bind fun _ => total_update _

namespace Handler

variable (opcode : UInt8)

theorem failsFirst_storeRegister : FailsFirst (storeRegister.execute opcode) := by
  refine .reads_bind reads_state fun cpu => ?_
  dsimp only
  split
  · exact failsFirst_set_advance _ _ _
  · exact .reads_bind (reads_operand _) fun operand => failsFirst_write32_advance _ _ _

theorem failsFirst_loadRegister : FailsFirst (loadRegister.execute opcode) := by
  refine .reads_bind reads_state fun cpu => ?_
  dsimp only
  split
  · exact failsFirst_set_advance _ _ _
  · exact .reads_bind (reads_operand _) fun operand => failsFirst_set_advance _ _ _

theorem failsFirst_loadFarPointer : FailsFirst (loadFarPointer.execute opcode) := by
  refine .reads_bind reads_state fun cpu => ?_
  dsimp only
  split
  · exact failsFirst_fail _
  · exact .reads_bind (reads_operand _) fun operand => failsFirst_set_advance _ _ _

/-- The pointers and the count move only after the element is done. -/
theorem failsFirst_blockOperation : FailsFirst (blockOperation.execute opcode) := by
  refine .reads_bind reads_state fun cpu => ?_
  split
  · exact .of_total fun _ => total_update _
  · cases BlockOp.ofOpcode? opcode with
    | none => exact failsFirst_fail _
    | some op => exact (failsFirst_attempt _).bind fun _ _ => total_update _

theorem failsFirst_callIndirect : FailsFirst (callIndirect.execute opcode) := by
  refine .reads_bind reads_state fun cpu => ?_
  dsimp only
  split
  · exact failsFirst_enterCall _ _
  · split
    · exact failsFirst_enterCall _ _
    · exact failsFirst_fail _

theorem failsFirst_deviceTransfer : FailsFirst (deviceTransfer.execute opcode) := by
  refine .of_total fun _ => total_state.bind fun cpu => ?_
  split
  · exact (total_emit _).bind fun _ => (total_update _).bind fun _ => total_update _
  · exact (total_emit _).bind fun _ => total_update _

end Handler

/-- A handler that ends with a value from every state fails first. -/
theorem failsFirst_of_ok {x : Linkage → Exec Fault Unit}
    (h : ∀ linkage cpu, ((x linkage).run cpu).result = .ok ()) : FailsFirst x :=
  .of_total fun linkage cpu => ⟨(), h linkage cpu⟩

namespace InstructionSet

open Handler

/-- **Every handler fails before it does anything**, and no matter what it is linked to. -/
theorem standardHandlers_failsFirst :
    ∀ handler ∈ standardHandlers, ∀ opcode, FailsFirst (handler.execute opcode) := by
  intro handler hmem opcode
  simp only [standardHandlers, List.mem_cons, List.not_mem_nil, or_false] at hmem
  -- in the order of the opcodes, as the handlers are registered
  rcases hmem with rfl | rfl | rfl | rfl | rfl | rfl | rfl | rfl | rfl | rfl | rfl | rfl | rfl |
    rfl | rfl | rfl | rfl | rfl | rfl | rfl | rfl | rfl | rfl | rfl | rfl
  · exact failsFirst_of_ok fun _ _ => rfl
  · exact failsFirst_of_ok fun _ _ => rfl
  · exact failsFirst_of_ok fun _ _ => rfl
  · exact .reads_bind reads_state fun _ => failsFirst_push_advance _ _
  · exact failsFirst_of_ok fun _ _ => rfl
  · exact .reads_bind reads_state fun _ => failsFirst_push_advance _ _
  · exact .reads_bind reads_state fun _ => failsFirst_push_advance _ _
  · exact failsFirst_storeRegister opcode
  · exact failsFirst_loadRegister opcode
  · exact failsFirst_of_ok fun _ _ => rfl
  · exact failsFirst_of_ok fun _ _ => rfl
  · exact failsFirst_of_ok fun _ _ => rfl
  · exact .reads_bind reads_state fun _ => failsFirst_write32_advance _ _ _
  · exact failsFirst_blockOperation opcode
  · exact failsFirst_of_ok fun _ _ => rfl
  · exact failsFirst_of_ok fun _ _ => rfl
  · exact failsFirst_loadFarPointer opcode
  · exact failsFirst_of_ok fun _ _ => rfl
  · exact failsFirst_deviceTransfer opcode
  · exact .reads_bind reads_state fun _ => failsFirst_enterCall _ _
  · exact failsFirst_of_ok fun _ _ => rfl
  · exact failsFirst_of_ok fun _ _ => rfl
  · exact failsFirst_of_ok fun _ _ => rfl
  · exact failsFirst_of_ok fun _ _ => rfl
  · exact failsFirst_callIndirect opcode

theorem failsFirst_of_handler? {opcode : UInt8} {handler : Handler}
    (h : standard.handler? opcode = some handler) : FailsFirst (handler.execute opcode) :=
  standardHandlers_failsFirst handler (mem_of_standard_handler? h) opcode

variable {linkage : Linkage} {cpu : Cpu} {fault : Fault}

/-- A dispatch that fails leaves the primed state, and fails alike under every linkage. -/
theorem dispatch_error (h : ((standard.dispatch linkage).run cpu).result = .error fault)
    (linkage' : Linkage) :
    (standard.dispatch linkage').run cpu =
      ⟨.error fault, standard.primed cpu, standard.preamble cpu⟩ := by
  cases hh : standard.handler? cpu.opcode with
  | none =>
    rw [dispatch_run_of_none linkage hh] at h
    cases h
    rw [dispatch_run_of_none linkage' hh, primed_of_none hh, preamble, hh]
  | some handler =>
    rw [dispatch_result linkage hh] at h
    -- the handler has failed in the primed state, and failed first
    have hfail := failsFirst_of_handler? hh linkage (standard.primed cpu) fault h linkage'
    rw [dispatch_run linkage' hh, hfail, preamble, hh]
    simp

/-- **A failing instruction is fetched again in vain**: in the state that it leaves, it
fails again in the same way. -/
theorem dispatch_error_again (h : ((standard.dispatch linkage).run cpu).result = .error fault) :
    (standard.dispatch linkage).run (standard.primed cpu) =
      ⟨.error fault, standard.primed cpu, standard.preamble (standard.primed cpu)⟩ := by
  have hagain : ((standard.dispatch linkage).run (standard.primed cpu)).result = .error fault := by
    cases hh : standard.handler? cpu.opcode with
    | none => rw [primed_of_none hh, h]
    | some handler =>
      have hh' : standard.handler? (standard.primed cpu).opcode = some handler := by
        rw [opcode_primed, hh]
      rw [dispatch_result linkage hh', primed_primed, opcode_primed,
        ← dispatch_result linkage hh, h]
  rw [dispatch_error hagain linkage, primed_primed]

/-- **An instruction that fails changes nothing.** Registers, EIP, flags, memory with its
pages and protections, halted flag, retired count and call frames are those from before,
and the pending repeat prefix is too unless the instruction has a handler without a use
for it. Nor is any emulator asked: whatever emulators there are, the outcome is the same,
and no more happens than the dispatcher's own notes. -/
theorem dispatch_atomic (h : ((standard.dispatch linkage).run cpu).result = .error fault) :
    (standard.dispatch linkage).run cpu =
        ⟨.error fault, { cpu with rep := standard.keptRep cpu }, standard.preamble cpu⟩ ∧
      ∀ emulators, (standard.dispatch { linkage with emulators }).run cpu =
        (standard.dispatch linkage).run cpu := by
  refine ⟨dispatch_error h linkage, fun emulators => ?_⟩
  rw [dispatch_error h linkage, dispatch_error h]

/-- A processor about to call EAX, with its stack on a read-only page and a repeat prefix
pending. -/
def blockedCall : Cpu where
  registers := { eax := 0x7ff00000, esp := 0x80000 }
  eip := 0x1000
  rep := some .rep
  memory := ((({} : Memory).store8 0x1000 0xff).store8 0x1001 0xd0).protectPage 0x7f000 .readOnly

/-- What EAX then points to is `ExitProcess`, which would halt the processor. -/
def exitLinkage : Linkage where
  imports := .ofList [("ExitProcess", 0x7ff00000)]
  emulators := Win32.libraries

theorem blockedCall_handler : standard.handler? blockedCall.opcode = some callIndirect := by
  have hopcode : blockedCall.opcode = 0xff := by
    simp [Cpu.opcode, blockedCall, Memory.read8_store8]
  rw [hopcode, standard_handler?_eq]
  rfl

theorem blockedCall_refused : ((standard.dispatch exitLinkage).run blockedCall).result =
    .error (.accessViolation ⟨0x7fffc, .readOnly⟩) := by
  rw [dispatch_result exitLinkage blockedCall_handler]
  rfl

theorem dispatch_atomic_blockedCall :
    ((standard.dispatch exitLinkage).run blockedCall).result =
        .error (.accessViolation ⟨0x7fffc, .readOnly⟩) ∧
      ((standard.dispatch exitLinkage).run blockedCall).cpu = { blockedCall with rep := none } := by
  have hkept : standard.keptRep blockedCall = none := by
    rw [keptRep, blockedCall_handler]
    rfl
  refine ⟨blockedCall_refused, ?_⟩
  rw [(dispatch_atomic blockedCall_refused).1, hkept]

end InstructionSet

end Ia32
