import Ia32.Proofs.Steps
import Ia32.Proofs.UnservedCall

/-!
# Activations

An activation begins with a call that enters guest code and ends with a return to the caller. In
between there may be other instructions, calls that the host answers, and activations in their turn,
in any order and to any depth. That a return belongs to a call is seen from the stack: the stack
pointer is at the slot of the return address of the call, and the address is still there.

* `Cpu.InCall`: a call has been entered and not left yet. `Cpu.Activation`: it has been left.
* `Cpu.CallEnds`, `callEnds_of_enterCall`: the three ways in which a call ends.
* `CallsGuest.frames_eq`, `CallsHost.frames_eq`, `Proceeds.frames_eq`, `Leaves.state`: what each
  step does to the frames.
* `InCall.frames`: in a call, the frames are those from before it without the slots used since;
  only the slot of the call itself may be noted.
* `activations_balanced`: **well-nested calls leave no frame behind**.
-/

namespace Ia32

open Exec InstructionSet

/-! ## What happens in an activation -/

/-- Frames and stack pointer are the same in both states. -/
def Cpu.SameStack (cpu cpu' : Cpu) : Prop := cpu'.frames = cpu.frames ∧ cpu'.esp = cpu.esp

/-- None of the emulators answers, and what each of them does, in the state that those before it
have left, keeps frames and stack pointer the same. -/
def AskedInVain (symbol : String) : List Emulator → Cpu → Prop
  | [], _ => True
  | emulator :: others, cpu =>
    emulator.answer? symbol cpu = none ∧ cpu.SameStack (emulator.decline symbol cpu).1 ∧
      AskedInVain symbol others (emulator.decline symbol cpu).1

namespace Cpu

/-- The dispatch of the instruction at EIP succeeds and leads to `cpu'`. -/
def Dispatches (linkage : Linkage) (cpu cpu' : Cpu) : Prop :=
  ∃ events, (standard.dispatch linkage).run cpu = ⟨.ok (), cpu', events⟩

/-- An instruction that is neither a call nor a return. -/
structure Proceeds (cpu cpu' : Cpu) : Prop where
  noCall : ∀ target next, ¬cpu.Calls target next
  noReturn : ∀ released, ¬cpu.Returns released
  dispatches : ∃ linkage, cpu.Dispatches linkage cpu'

/-- A call that enters guest code: its target is no symbol, or one that no emulator answers. -/
inductive CallsGuest (cpu : Cpu) (next : UInt32) (cpu' : Cpu) : Prop where
  | intro {linkage : Linkage} {target : UInt32} (hcalls : cpu.Calls target next)
    (hguest : ∀ symbol, linkage.imports.name? target = some symbol →
      AskedInVain symbol linkage.emulators (cpu.dropRep.called next))
    (hdispatches : cpu.Dispatches linkage cpu')

/-- A call that a function of a registry answers, after emulators that do not. The function leaves
frames and stack pointer alone; a typed one cannot do otherwise. -/
inductive CallsHost (cpu cpu' : Cpu) : Prop where
  | intro {imports : Imports} {before others : List Emulator} {registry : Registry}
    {target next : UInt32} {symbol : String} {f : HostFunction} (hcalls : cpu.Calls target next)
    (hsymbol : imports.name? target = some symbol)
    (hbefore : AskedInVain symbol before (cpu.dropRep.called next))
    (hfunction : registry.table.function? symbol = some f) (hf : f.Within SameStack)
    (hdispatches :
      cpu.Dispatches { imports, emulators := before ++ registry.emulator :: others } cpu')

/-- A return from the call that was made in `cpu` and returns to `next`, back to `cpu'`. -/
structure Leaves (left cpu : Cpu) (next released : UInt32) (cpu' : Cpu) : Prop where
  esp : left.esp = cpu.esp - 4
  top : left.memory.read32 (cpu.esp - 4) = next
  returns : left.Returns released
  dispatches : ∃ linkage, left.Dispatches linkage cpu'

/-- A call that was made in `cpu` and returns to `next` has been entered and not left yet. The
return addresses of calls since then, this one included, have been stored at the `slots`. -/
inductive InCall : (cpu : Cpu) → (next : UInt32) → (slots : List UInt32) → (cpu' : Cpu) → Prop where
  | enter {cpu cpu' next} (hcall : cpu.CallsGuest next cpu') : InCall cpu next [cpu.esp - 4] cpu'
  | proceed {cpu cpu' cpu'' next slots} (hin : InCall cpu next slots cpu')
    (hstep : cpu'.Proceeds cpu'') : InCall cpu next slots cpu''
  | host {cpu cpu' cpu'' next slots} (hin : InCall cpu next slots cpu')
    (hcall : cpu'.CallsHost cpu'') : InCall cpu next (slots ++ [cpu'.esp - 4]) cpu''
  | activation {cpu cpu' left cpu'' next next' released slots slots'}
    (hin : InCall cpu next slots cpu') (hinner : InCall cpu' next' slots' left)
    (hleaves : left.Leaves cpu' next' released cpu'') : InCall cpu next (slots ++ slots') cpu''

/-- A call that was made in `cpu` has been entered and left, back to `cpu'`. -/
inductive Activation (cpu : Cpu) (next released : UInt32) (slots : List UInt32) (cpu' : Cpu) :
    Prop where
  | intro {left : Cpu} (hin : cpu.InCall next slots left)
    (hleaves : left.Leaves cpu next released cpu')

end Cpu

instance : IsPreorder Cpu Cpu.SameStack where
  refl _ := ⟨rfl, rfl⟩
  trans _ _ _ h h' := ⟨h'.1.trans h.1, h'.2.trans h.2⟩

/-! ## Calls -/

/-- How a call of `target` ends, once its return address is stored and its frame noted: in the
guest, or back at the caller with what an emulator has answered. -/
inductive Cpu.CallEnds (linkage : Linkage) (target : UInt32) (called : Cpu) : Cpu → Prop where
  | unnamed (hname : linkage.imports.name? target = none) :
    CallEnds linkage target called (called.jump target)
  | unserved {symbol : String} {asked : Cpu} {events : List Event}
    (hname : linkage.imports.name? target = some symbol)
    (hconsult : (consult symbol linkage.emulators).run called = ⟨.ok none, asked, events⟩) :
    CallEnds linkage target called (asked.jump target)
  | served {symbol : String} {emulator : Emulator} {result : UInt32} {asked : Cpu}
    {events : List Event} (hname : linkage.imports.name? target = some symbol)
    (hconsult : (consult symbol linkage.emulators).run called =
      ⟨.ok (some (emulator, result)), asked, events⟩) :
    CallEnds linkage target called (asked.returnFromHost result (emulator.cleanup symbol))

/-- A call that succeeds has stored its return address, and ends in one of the three ways. -/
theorem callEnds_of_enterCall {cpu cpu' : Cpu} {linkage : Linkage} {target next : UInt32}
    {events : List Event}
    (h : (enterCall linkage target next).run cpu = ⟨.ok (), cpu', events⟩) :
    cpu.memory.Writable (cpu.esp - 4) 4 ∧ (cpu.called next).CallEnds linkage target cpu' := by
  -- the push is all that can make a call fail
  have hstack : cpu.memory.Writable (cpu.esp - 4) 4 := by
    cases hpush : cpu.push? next with
    | ok pushed => exact (Cpu.push?_eq_ok_iff.mp hpush).1
    | error violation =>
      rw [enterCall, bind_run, push, attempt_run, hpush] at h
      cases h
  refine ⟨hstack, ?_⟩
  rw [enterCall_run hstack] at h
  cases hname : linkage.imports.name? target with
  | none =>
    simp only [hname] at h
    cases h
    exact .unnamed hname
  | some symbol =>
    simp only [hname] at h
    rw [bind_run] at h
    rcases hconsult : (consult symbol linkage.emulators).run (cpu.called next)
      with ⟨fault | _ | answer, asked, events'⟩ <;> rw [hconsult] at h <;> cases h
    · exact .unserved hname hconsult
    · exact .served hname hconsult

/-- Emulators that are asked in vain are passed over. -/
theorem consult_run_append {symbol : String} {before : List Emulator} {cpu : Cpu}
    (hbefore : AskedInVain symbol before cpu) (others : List Emulator) :
    ∃ asked events, cpu.SameStack asked ∧
      (consult symbol (before ++ others)).run cpu =
        { (consult symbol others).run asked with
          events := events ++ ((consult symbol others).run asked).events } := by
  induction before generalizing cpu with
  | nil => exact ⟨cpu, [], refl_of _ cpu, rfl⟩
  | cons emulator before ih =>
    obtain ⟨hanswer, hsame, hbefore⟩ := hbefore
    obtain ⟨asked, events, hasked, hrun⟩ := ih hbefore
    refine ⟨asked, (emulator.decline symbol cpu).2 ++ events, trans_of _ hsame hasked, ?_⟩
    rw [List.cons_append, consult, state_bind_run]
    simp only [hanswer, bind_run, emitAll_run, update_run, hrun, List.nil_append,
      List.append_assoc]

/-- Emulators that are all asked in vain do not answer. -/
theorem AskedInVain.consult_run {symbol : String} {emulators : List Emulator} {cpu : Cpu}
    (h : AskedInVain symbol emulators cpu) :
    ∃ asked events, cpu.SameStack asked ∧
      (consult symbol emulators).run cpu = ⟨.ok none, asked, events⟩ := by
  obtain ⟨asked, events, hsame, hrun⟩ := consult_run_append h []
  rw [List.append_nil] at hrun
  exact ⟨asked, _, hsame, hrun⟩

/-- Registries without the symbol are asked in vain. -/
theorem askedInVain_registries {symbol : String} {registries : List Registry}
    (h : ∀ registry ∈ registries, registry.table.contains symbol = false) (cpu : Cpu) :
    AskedInVain symbol (registries.map Registry.emulator) cpu := by
  induction registries with
  | nil => trivial
  | cons registry registries ih =>
    obtain ⟨hregistry, hothers⟩ := List.forall_mem_cons.mp h
    exact ⟨Registry.answer?_eq_none hregistry cpu, refl_of _ cpu, ih hothers⟩

/-- A function of a registry answers for it. -/
theorem Registry.answer?_emulator {registry : Registry} {symbol : String} {f : HostFunction}
    (hfunction : registry.table.function? symbol = some f) (hf : f.Within Cpu.SameStack)
    (cpu : Cpu) :
    ∃ reply, registry.emulator.answer? symbol cpu = some reply ∧ cpu.SameStack reply.cpu := by
  change ∃ reply, registry.table.invoke? symbol cpu = some reply ∧ _
  rw [FunctionTable.invoke?, hfunction]
  cases f with
  | typed parameters body => exact ⟨_, rfl, refl_of _ cpu⟩
  | variadic body => exact ⟨_, rfl, hf cpu⟩

namespace Cpu

variable {cpu cpu' : Cpu} {next : UInt32}

/-- The dispatch of a call succeeds only if the call does, and ends as the call does. -/
theorem Dispatches.callEnds {linkage : Linkage} {target : UInt32}
    (h : cpu.Dispatches linkage cpu') (hcalls : cpu.Calls target next) :
    cpu.memory.Writable (cpu.esp - 4) 4 ∧
      ∃ entered, (cpu.dropRep.called next).CallEnds linkage target entered ∧
        cpu' = entered.retire := by
  obtain ⟨events, hrun⟩ := h
  rw [dispatch_of_calls hcalls] at hrun
  rcases henter : (enterCall linkage target next).run cpu.dropRep
    with ⟨fault | _, entered, events'⟩ <;> rw [henter] at hrun <;> cases hrun
  obtain ⟨hstack, hends⟩ := callEnds_of_enterCall henter
  exact ⟨hstack, entered, hends, rfl⟩

/-- A call of an address that is no symbol enters guest code. -/
theorem CallsGuest.of_calls {target : UInt32} (hcalls : cpu.Calls target next) (linkage : Linkage)
    (hname : linkage.imports.name? target = none)
    (hstack : cpu.memory.Writable (cpu.esp - 4) 4) :
    cpu.CallsGuest next ((cpu.dropRep.called next).jump target).retire := by
  have hdispatches :
      cpu.Dispatches linkage ((cpu.dropRep.called next).jump target).retire :=
    ⟨standard.preamble cpu, dispatch_unnamed hcalls hstack hname⟩
  refine .intro hcalls (fun symbol hsymbol => ?_) hdispatches
  rw [hname] at hsymbol
  cases hsymbol

/-- A call that enters guest code notes its frame. -/
theorem CallsGuest.frames_eq (h : cpu.CallsGuest next cpu') :
    cpu'.frames = cpu.frames.insert (cpu.esp - 4) next := by
  obtain @⟨linkage, target, hcalls, hguest, hdispatches⟩ := h
  obtain ⟨-, entered, hends, rfl⟩ := hdispatches.callEnds hcalls
  cases hends with
  | unnamed => rfl
  | unserved hname hconsult =>
    obtain ⟨asked, events, hsame, hrun⟩ := (hguest _ hname).consult_run
    cases hconsult.symm.trans hrun
    exact hsame.1
  | served hname hconsult =>
    obtain ⟨asked, events, -, hrun⟩ := (hguest _ hname).consult_run
    cases hconsult.symm.trans hrun

/-- A call of a symbol that the first registry with it has a typed function for is one that the
host answers. -/
theorem CallsHost.of_calls {target : UInt32} (hcalls : cpu.Calls target next) {imports : Imports}
    {symbol : String} (hsymbol : imports.name? target = some symbol)
    {registries : List Registry} {registry : Registry}
    (hfirst : registries.find? (·.table.contains symbol) = some registry)
    {parameters : List ParamType} {body : List Param → UInt32 × List Event}
    (hfunction : registry.table.function? symbol = some (.typed parameters body))
    (hstack : cpu.memory.Writable (cpu.esp - 4) 4) :
    let called := cpu.dropRep.called next
    cpu.CallsHost (called.returnFromHost (body (called.arguments parameters)).1
      (registry.emulator.cleanup symbol)).retire := by
  intro called
  have hstack' : cpu.dropRep.memory.Writable (cpu.dropRep.esp - 4) 4 := hstack
  have hdispatches :
      cpu.Dispatches { imports, emulators := registries.map Registry.emulator }
        (called.returnFromHost (body (called.arguments parameters)).1
          (registry.emulator.cleanup symbol)).retire := by
    rw [Dispatches, dispatch_of_calls hcalls,
      enterCall_run_served hsymbol hfirst hfunction hstack' rfl]
    exact ⟨_, rfl⟩
  obtain ⟨-, before, others, rfl, hbefore⟩ := List.find?_eq_some_iff_append.mp hfirst
  rw [List.map_append, List.map_cons] at hdispatches
  refine .intro hcalls hsymbol ?_ hfunction trivial hdispatches
  refine askedInVain_registries (fun other hother => ?_) _
  simpa using hbefore other hother

/-- A call that the host answers leaves no frame at its slot. -/
theorem CallsHost.frames_eq (h : cpu.CallsHost cpu') :
    cpu'.frames = cpu.frames.erase (cpu.esp - 4) := by
  obtain @⟨imports, before, others, registry, target, next, symbol, f, hcalls, hsymbol, hbefore,
    hfunction, hf, hdispatches⟩ := h
  obtain ⟨-, entered, hends, rfl⟩ := hdispatches.callEnds hcalls
  obtain ⟨asked, events, hasked, hrun⟩ := consult_run_append hbefore (registry.emulator :: others)
  obtain ⟨reply, hanswer, hreply⟩ := registry.answer?_emulator hfunction hf asked
  rw [consult_run_cons_of_answer hanswer] at hrun
  cases hends with
  | unnamed hname => cases hsymbol.symm.trans hname
  | unserved hname hconsult =>
    cases hsymbol.symm.trans hname
    cases hconsult.symm.trans hrun
  | served hname hconsult =>
    cases hsymbol.symm.trans hname
    cases hconsult.symm.trans hrun
    obtain ⟨hframes, hesp⟩ := trans_of Cpu.SameStack hasked hreply
    change reply.cpu.frames.erase reply.cpu.esp = _
    rw [hframes, hesp]
    exact erase_insert_frames cpu.frames (cpu.esp - 4) next

end Cpu

/-! ## Other instructions and returns -/

/-- Frames are the same in both states. -/
def Cpu.SameFrames (cpu cpu' : Cpu) : Prop := cpu'.frames = cpu.frames

instance : IsPreorder Cpu Cpu.SameFrames where
  refl _ := rfl
  trans _ _ _ h h' := h'.trans h

theorem permitsPlain_sameFrames : PermitsPlain Cpu.SameFrames where
  set _ _ _ := rfl
  jump _ _ := rfl
  write8 _ := rfl
  write32 _ := rfl
  rep _ _ := rfl
  compare _ _ _ := rfl
  direction _ _ := rfl
  halt _ := rfl

namespace Cpu

variable {cpu cpu' : Cpu} {linkage : Linkage}

/-- With opcode FF only calls succeed. -/
theorem Dispatches.exists_calls (h : cpu.Dispatches linkage cpu') (hopcode : cpu.opcode = 0xff) :
    ∃ target next, cpu.Calls target next := by
  have hindirect : standard.handler? 0xff = some .callIndirect := by
    rw [standard_handler?_eq]
    rfl
  obtain ⟨events, hrun⟩ := h
  rw [dispatch_run_dropRep linkage (by rw [hopcode, hindirect]) rfl, Handler.callIndirect] at hrun
  dsimp only at hrun
  rw [state_bind_run, codeByte_dropRep] at hrun
  -- by the operand: a register, a slot, or one that the handler refuses
  split at hrun
  · rename_i hform
    obtain ⟨hlow, hhigh⟩ := ModRm.called_register_iff.mp hform
    exact ⟨_, _, .register hopcode hlow hhigh⟩
  · split at hrun
    · rename_i hform
      exact ⟨_, _, .slot hopcode (ModRm.called_slot_iff.mp hform)⟩
    · rw [fail_run, concluded_error] at hrun
      cases hrun

/-- An instruction that is neither a call nor a return leaves the frames alone. -/
theorem Proceeds.frames_eq (h : cpu.Proceeds cpu') : cpu'.frames = cpu.frames := by
  obtain ⟨hcall, hreturn, linkage, events, hrun⟩ := h
  have hdispatches : cpu.Dispatches linkage cpu' := ⟨events, hrun⟩
  obtain ⟨handler, left, events', hhandler, hexecute, rfl⟩ := exists_of_dispatch linkage hrun
  have hclaims := claims_of_standard_handler? hhandler
  -- the three handlers that are not plain are those of calls and returns
  rcases plain_or_of_mem_standardHandlers (mem_of_standard_handler? hhandler)
    with hplain | rfl | rfl | rfl
  · have hkept : (standard.primed cpu).SameFrames left :=
      (plainHandlers_within permitsPlain_sameFrames linkage handler hplain cpu.opcode).of_run hexecute
    rw [SameFrames, frames_primed] at hkept
    exact hkept
  · exact absurd (.relative (of_decide_eq_true hclaims)) (hcall _ _)
  · obtain ⟨target, next, hcalls⟩ := hdispatches.exists_calls (of_decide_eq_true hclaims)
    exact absurd hcalls (hcall target next)
  · rcases of_decide_eq_true hclaims with hopcode | hopcode
    · exact absurd (.counted hopcode) (hreturn _)
    · exact absurd (.plain hopcode) (hreturn _)

variable {left : Cpu} {next released : UInt32}

/-- What a return leaves: it goes on at the return address, with the stack pointer where it was
before the call but for the bytes taken off, and releases the frame at the slot. -/
theorem Leaves.state (h : left.Leaves cpu next released cpu') :
    cpu'.eip = next ∧ cpu'.esp = cpu.esp + released ∧
      cpu'.frames = left.frames.erase (cpu.esp - 4) := by
  obtain ⟨hesp, htop, hreturns, linkage, events, hrun⟩ := h
  rw [dispatch_of_returns hreturns] at hrun
  cases hrun
  rw [← hesp] at htop ⊢
  have hreleased : left.esp + 4 + released = cpu.esp + released := by
    rw [hesp]
    grind
  exact ⟨htop, hreleased, rfl⟩

/-! ## Whole activations -/

variable {slots : List UInt32}

/-- The slot of the call itself is among those that have been used. -/
theorem InCall.mem_slots (h : cpu.InCall next slots cpu') : cpu.esp - 4 ∈ slots := by
  induction h with
  | enter hcall => exact List.mem_singleton.mpr rfl
  | proceed hin hstep ih => exact ih
  | host hin hcall ih => exact List.mem_append_left _ ih
  | activation hin hinner hleaves ih _ => exact List.mem_append_left _ ih

/-- A call that is left takes its own slot out of the frames, too. -/
theorem Leaves.frames (h : left.Leaves cpu next released cpu') (hmem : cpu.esp - 4 ∈ slots)
    (hleft : ∀ slot, slot ≠ cpu.esp - 4 →
      left.frames[slot]? = if slot ∈ slots then none else cpu.frames[slot]?) (slot : UInt32) :
    cpu'.frames[slot]? = if slot ∈ slots then none else cpu.frames[slot]? := by
  obtain ⟨-, -, hframes⟩ := h.state
  rw [hframes, Std.ExtTreeMap.getElem?_erase]
  by_cases hslot : slot = cpu.esp - 4
  · subst hslot
    simp [hmem]
  · simp [Ne.symm hslot, hleft slot hslot]

/-- **In a call** the frames are those from before it without the slots that have been used. What
is noted at the slot of the call itself is left open: a call that is made after its return address
has been taken off uses the slot again. -/
theorem InCall.frames (h : cpu.InCall next slots cpu') : ∀ slot, slot ≠ cpu.esp - 4 →
    cpu'.frames[slot]? = if slot ∈ slots then none else cpu.frames[slot]? := by
  -- one case for each way to go on; that of an activation has two hypotheses, one for each call
  induction h with
  | enter hcall =>
    intro slot hslot
    rw [hcall.frames_eq, Std.ExtTreeMap.getElem?_insert]
    simp [hslot, Ne.symm hslot]
  | proceed hin hstep ih =>
    intro slot hslot
    rw [hstep.frames_eq, ih slot hslot]
  | @host cpu cpu' cpu'' next slots hin hcall ih =>
    intro slot hslot
    rw [hcall.frames_eq, Std.ExtTreeMap.getElem?_erase, ih slot hslot]
    by_cases hused : slot = cpu'.esp - 4
    · simp [hused]
    · simp [hused, Ne.symm hused]
  | @activation _ _ _ _ _ _ _ slots slots' hin hinner hleaves ih ihinner =>
    intro slot hslot
    rw [hleaves.frames hinner.mem_slots ihinner, ih slot hslot]
    by_cases hused : slot ∈ slots'
    · simp [hused]
    · simp [hused]

theorem sameStack_returnWith (cpu : Cpu) (result : UInt32) :
    cpu.SameStack (Win32.returnWith cpu result) := ⟨rfl, rfl⟩

/-- The functions of the emulated libraries leave frames and stack pointer alone, the variadic ones
among them too. -/
theorem libraryFunction_within {symbol : String} {f : HostFunction}
    (h : Win32.kernel32Table.function? symbol = some f ∨
      Win32.user32Table.function? symbol = some f) : f.Within SameStack := by
  rcases h with hkernel32 | huser32
  · rcases Win32.eq_of_kernel32Table hkernel32 with rfl | rfl | rfl | ⟨-, rfl⟩
    · trivial
    · trivial
    · exact fun cpu => sameStack_returnWith cpu _
    · exact fun cpu => sameStack_returnWith { cpu with halted := true } _
  · rw [Win32.eq_of_user32Table huser32]
    trivial

/-- **Well-nested calls leave no frame behind.** A call has been made, entered and left. Then

* EIP is the return address of the call, and ESP where it was before the call, but for the bytes
  that the return has taken off;
* the frames are those from before the call without the slots that return addresses of the
  activation have been stored at: its own, those of the activations in it, and those of calls that
  the host has answered. No frame has been added or changed.

Typed functions and the functions of `kernel32` and `user32` all are such that a call of them may
be part of an activation. -/
theorem activations_balanced :
    (∀ {cpu next released slots cpu'}, Activation cpu next released slots cpu' →
      cpu'.eip = next ∧ cpu'.esp = cpu.esp + released ∧
        ∀ slot, cpu'.frames[slot]? = if slot ∈ slots then none else cpu.frames[slot]?) ∧
    (∀ parameters body, (HostFunction.typed parameters body).Within SameStack) ∧
    ∀ symbol f, Win32.kernel32Table.function? symbol = some f ∨
      Win32.user32Table.function? symbol = some f → f.Within SameStack := by
  refine ⟨fun h => ?_, fun _ _ => trivial, fun _ _ => libraryFunction_within⟩
  obtain ⟨hin, hleaves⟩ := h
  obtain ⟨heip, hesp, -⟩ := hleaves.state
  exact ⟨heip, hesp, hleaves.frames hin.mem_slots hin.frames⟩

/-- A processor at a call of a function that asks the host for `GetLastError` through EBX, calls a
function that does nothing, and takes eight bytes off the stack when it returns. Both calls that it
makes store their return address at one slot, where a frame is noted from before. -/
def nestedCalls : Cpu where
  registers := { ebx := 0x7ff00000, esp := 0x80000 }
  eip := 0x1000
  memory := ((({} : Memory).storeBytes 0x1000 [0xe8, 0x0b, 0x00, 0x00, 0x00]).storeBytes 0x1010
    [0xff, 0xd3, 0xe8, 0x09, 0x00, 0x00, 0x00, 0xc2, 0x08, 0x00]).storeBytes 0x1020 [0x90, 0xc3]
  frames := (Std.ExtTreeMap.empty.insert 0x80010 0x2000).insert 0x7fff8 0x3000

/-- The processor of `nestedCalls` some instructions later, with `stored` on its stack. -/
def nestedCallsAt (eip esp : UInt32) (stored : List (UInt32 × UInt32)) (retired : UInt64)
    (frames : Std.ExtTreeMap UInt32 UInt32) : Cpu :=
  { nestedCalls with
    registers := { nestedCalls.registers with esp }
    eip
    memory := stored.foldl (fun memory (a, v) => memory.store32 a v) nestedCalls.memory
    retired
    frames }

section NestedCalls

variable (eip esp : UInt32) (stored : List (UInt32 × UInt32)) (retired : UInt64)
  (frames : Std.ExtTreeMap UInt32 UInt32)

theorem writable_nestedCallsAt (a n : UInt32) :
    (nestedCallsAt eip esp stored retired frames).memory.Writable a n := by
  have hstores (m : Memory) (x : UInt32) :
      (stored.foldl (fun memory (a, v) => memory.store32 a v) m).protectionAt x =
        m.protectionAt x := by
    induction stored generalizing m with
    | nil => rfl
    | cons entry stored ih =>
      rw [List.foldl_cons, ih, Memory.protectionAt_store32]
  intro x _
  rw [nestedCallsAt, hstores]
  simp [nestedCalls, Memory.storeBytes]

variable {eip esp stored retired frames} {slot next target released : UInt32}

theorem callsGuest_nestedCallsAt (hslot : esp - 4 = slot)
    (hcalls : (nestedCallsAt eip esp stored retired frames).Calls target next) :
    (nestedCallsAt eip esp stored retired frames).CallsGuest next
      (nestedCallsAt target slot (stored ++ [(slot, next)]) (retired + 1)
        (frames.insert slot next)) := by
  have hcall := CallsGuest.of_calls hcalls {} (by rfl)
    (writable_nestedCallsAt eip esp stored retired frames _ _)
  have hentered :
      (((nestedCallsAt eip esp stored retired frames).dropRep.called next).jump target).retire =
        nestedCallsAt target slot (stored ++ [(slot, next)]) (retired + 1)
          (frames.insert slot next) := by
    rw [← hslot]
    simp only [nestedCallsAt, List.foldl_append]
    rfl
  rwa [hentered] at hcall

theorem callsHost_nestedCallsAt (hslot : esp - 4 = slot)
    (hcalls : (nestedCallsAt eip esp stored retired frames).Calls 0x7ff00000 next) :
    (nestedCallsAt eip esp stored retired frames).CallsHost
      (nestedCallsAt next esp (stored ++ [(slot, next)]) (retired + 1) (frames.erase slot)) := by
  have hsymbol : (Imports.ofList [("GetLastError", 0x7ff00000)]).name? 0x7ff00000 =
      some "GetLastError" := by rfl
  have hfirst : libraryRegistries.find? (·.table.contains "GetLastError") =
      some ⟨"kernel32", Win32.kernel32Table⟩ := by rfl
  have hfunction : (⟨"kernel32", Win32.kernel32Table⟩ : Registry).table.function? "GetLastError" =
      some (.typed [] Win32.getLastError) := by rfl
  have hcall := CallsHost.of_calls hcalls hsymbol hfirst hfunction
    (writable_nestedCallsAt eip esp stored retired frames _ _)
  have hserved :
      (((nestedCallsAt eip esp stored retired frames).dropRep.called next).returnFromHost
          0 0).retire =
        nestedCallsAt next esp (stored ++ [(slot, next)]) (retired + 1) (frames.erase slot) := by
    have hesp : (nestedCallsAt eip esp stored retired frames).dropRep.esp + 0 = esp :=
      UInt32.add_zero esp
    rw [← hslot, returnFromHost_called, hesp]
    simp only [nestedCallsAt, List.foldl_append]
    rfl
  rw [Registry.cleanup_emulator hfunction] at hcall
  change CallsHost _ ((called _ _).returnFromHost 0 0).retire at hcall
  rwa [hserved] at hcall

theorem proceeds_nestedCallsAt
    (hopcode : (nestedCallsAt eip esp stored retired frames).opcode = 0x90) :
    (nestedCallsAt eip esp stored retired frames).Proceeds
      (nestedCallsAt (eip + 1) esp stored (retired + 1) frames) := by
  have hhandler :
      standard.handler? (nestedCallsAt eip esp stored retired frames).opcode = some .nop := by
    rw [hopcode, standard_handler?_eq]
    rfl
  have hrun := dispatch_run_dropRep {} hhandler rfl
  refine ⟨fun target next hcalls => ?_, fun released hreturns => ?_, {}, _, hrun⟩
  · rcases hcalls.opcode with h | h <;> rw [hopcode] at h <;> cases h
  · rcases hreturns.opcode with h | h <;> rw [hopcode] at h <;> cases h

theorem leaves_nestedCallsAt {cpu : Cpu} (hslot : cpu.esp - 4 = slot)
    (htop : (nestedCallsAt eip slot stored retired frames).memory.read32 slot = next)
    (hreturns : (nestedCallsAt eip slot stored retired frames).Returns released) :
    (nestedCallsAt eip slot stored retired frames).Leaves cpu next released
      (nestedCallsAt next (slot + 4 + released) stored (retired + 1) (frames.erase slot)) := by
  subst hslot htop
  exact ⟨rfl, rfl, hreturns, {}, _, dispatch_of_returns hreturns {}⟩

/-- What is stored on the stack of `nestedCalls` in the end. -/
def nestedCallsStored : List (UInt32 × UInt32) :=
  [(0x7fffc, 0x1005), (0x7fff8, 0x1012), (0x7fff8, 0x1017)]

variable (retired frames)

/-- CALL 1010. -/
theorem calls_nestedCalls :
    (nestedCallsAt 0x1000 0x80000 [] 0 nestedCalls.frames).Calls 0x1010 0x1005 := by
  have hopcode : nestedCalls.opcode = 0xe8 := by
    simp [nestedCalls, opcode, Memory.storeBytes, Memory.read8_store8]
  have htarget : nestedCalls.eip + 5 + nestedCalls.codeDword 1 = 0x1010 := by
    simp [nestedCalls, codeDword, Memory.read32, Memory.storeBytes, Memory.read8_store8]
    decide
  exact htarget ▸ .relative hopcode

/-- CALL EBX. -/
theorem calls_nestedCalls_host :
    (nestedCallsAt 0x1010 0x7fffc (nestedCallsStored.take 1) retired frames).Calls
      0x7ff00000 0x1012 := by
  let cpu := nestedCallsAt 0x1010 0x7fffc (nestedCallsStored.take 1) retired frames
  have hopcode : cpu.opcode = 0xff := by
    simp [cpu, nestedCallsAt, nestedCallsStored, nestedCalls, opcode, Memory.storeBytes,
      Memory.read8_store8, Memory.read8_store32]
  have hform : cpu.codeByte 1 = 0xd3 := by
    simp [cpu, nestedCallsAt, nestedCallsStored, nestedCalls, codeByte, Memory.storeBytes,
      Memory.read8_store8, Memory.read8_store32]
  have hregister := Calls.register hopcode (by rw [hform]; decide) (by rw [hform]; decide)
  rw [hform] at hregister
  exact hregister

/-- CALL 1020. -/
theorem calls_nestedCalls_inner :
    (nestedCallsAt 0x1012 0x7fffc (nestedCallsStored.take 2) retired frames).Calls
      0x1020 0x1017 := by
  let cpu := nestedCallsAt 0x1012 0x7fffc (nestedCallsStored.take 2) retired frames
  have hopcode : cpu.opcode = 0xe8 := by
    simp [cpu, nestedCallsAt, nestedCallsStored, nestedCalls, opcode, Memory.storeBytes,
      Memory.read8_store8, Memory.read8_store32]
  have hdistance : cpu.codeDword 1 = 9 := by
    simp [cpu, nestedCallsAt, nestedCallsStored, nestedCalls, codeDword, Memory.read32,
      Memory.storeBytes, Memory.read8_store8, Memory.read8_store32]
    decide
  have hcalls := Calls.relative hopcode
  rw [hdistance] at hcalls
  exact hcalls

/-- NOP. -/
theorem opcode_nestedCalls_nop :
    (nestedCallsAt 0x1020 0x7fff8 nestedCallsStored retired frames).opcode = 0x90 := by
  simp [nestedCallsAt, nestedCallsStored, nestedCalls, opcode, Memory.storeBytes,
    Memory.read8_store8, Memory.read8_store32]

/-- RET, at the end of the function that does nothing. -/
theorem returns_nestedCalls_inner :
    (nestedCallsAt 0x1021 0x7fff8 nestedCallsStored retired frames).Returns 0 := by
  refine .plain ?_
  simp [nestedCallsAt, nestedCallsStored, nestedCalls, opcode, Memory.storeBytes,
    Memory.read8_store32]

/-- RET 8. -/
theorem returns_nestedCalls :
    (nestedCallsAt 0x1017 0x7fffc nestedCallsStored retired frames).Returns 8 := by
  let cpu := nestedCallsAt 0x1017 0x7fffc nestedCallsStored retired frames
  have hopcode : cpu.opcode = 0xc2 := by
    simp [cpu, nestedCallsAt, nestedCallsStored, nestedCalls, opcode, Memory.storeBytes,
      Memory.read8_store8, Memory.read8_store32]
  have hcount : cpu.memory.read16 (cpu.eip + 1) = 8 := by
    simp [cpu, nestedCallsAt, nestedCallsStored, nestedCalls, Memory.read16, Memory.storeBytes,
      Memory.read8_store8, Memory.read8_store32]
    decide
  have hreturns := Returns.counted hopcode
  rw [hcount] at hreturns
  exact hreturns

theorem activations_balanced_nestedCalls : ∃ cpu',
    Activation nestedCalls 0x1005 8 [0x7fffc, 0x7fff8, 0x7fff8] cpu' ∧
      cpu'.eip = 0x1005 ∧ cpu'.esp = 0x80008 ∧ cpu'.frames[(0x80010 : UInt32)]? = some 0x2000 ∧
      cpu'.frames[(0x7fff8 : UInt32)]? = none := by
  have htop (eip esp retired frames) :
      (nestedCallsAt eip esp nestedCallsStored retired frames).memory.read32 0x7fffc = 0x1005 ∧
      (nestedCallsAt eip esp nestedCallsStored retired frames).memory.read32 0x7fff8 = 0x1017 := by
    refine ⟨?_, Memory.read32_store32 _ 0x7fff8 0x1017⟩
    simp [nestedCallsAt, nestedCallsStored, Memory.read32, Memory.read8_store32]
  have hentered : InCall nestedCalls 0x1005 [0x7fffc]
      (nestedCallsAt 0x1010 0x7fffc (nestedCallsStored.take 1) _ _) :=
    .enter (callsGuest_nestedCallsAt (by rfl) calls_nestedCalls)
  have hserved : InCall nestedCalls 0x1005 [0x7fffc, 0x7fff8]
      (nestedCallsAt 0x1012 0x7fffc (nestedCallsStored.take 2) _ _) :=
    hentered.host (callsHost_nestedCallsAt (by rfl) (calls_nestedCalls_host _ _))
  have hinner (retired frames) :
      InCall (nestedCallsAt 0x1012 0x7fffc (nestedCallsStored.take 2) retired frames) 0x1017
        [0x7fffc - 4] (nestedCallsAt 0x1021 0x7fff8 nestedCallsStored _ _) :=
    (InCall.enter (callsGuest_nestedCallsAt (by rfl) (calls_nestedCalls_inner _ _))).proceed
      (proceeds_nestedCallsAt (opcode_nestedCalls_nop _ _))
  have hreturned : InCall nestedCalls 0x1005 [0x7fffc, 0x7fff8, 0x7fff8]
      (nestedCallsAt 0x1017 0x7fffc nestedCallsStored _ _) :=
    hserved.activation (hinner _ _) (leaves_nestedCallsAt (by rfl) (htop _ _ _ _).2
      (returns_nestedCalls_inner _ _))
  have hactivation := Activation.intro hreturned
    (leaves_nestedCallsAt (by rfl) (htop _ _ _ _).1 (returns_nestedCalls _ _))
  obtain ⟨heip, hesp, hframes⟩ := activations_balanced.1 hactivation
  refine ⟨_, hactivation, heip, hesp, ?_, ?_⟩
  · rw [hframes, if_neg (by decide), nestedCalls, Std.ExtTreeMap.getElem?_insert,
      Std.ExtTreeMap.getElem?_insert]
    rfl
  · rw [hframes]
    rfl

end NestedCalls

end Cpu

end Ia32
