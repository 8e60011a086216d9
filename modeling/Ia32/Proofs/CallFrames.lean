import Ia32.CommandLine.Report
import Ia32.Proofs.Activation
import Ia32.Proofs.LoadedSandbox

/-!
# The frames that are listed

A call that enters guest code notes a frame at the slot of its return address. The frame is
released by the next return from that slot, and by the next call that the host answers there;
another call that enters guest code there replaces it. No other instruction touches frames, also
if it moves the stack pointer past them.

* `frames_of_dispatch`: what one instruction does to the frame at a slot.
* `frames_after`: **the frames after a run** are those of its calls whose slot has not been used
  since.
* `noneStale_iff_not_strands`: an instruction leaves a frame below the stack pointer in the list
  exactly if it moves the stack pointer past the slot without using it.
* `callFrames_listed`: **which frames are listed**, and which of them lie below the stack pointer.
* `not_forall_noneStale`: a program that pops a return address leaves such a frame.
-/

namespace Ia32

open Exec InstructionSet

namespace Cpu

/-! ## One instruction -/

/-- The instruction at EIP is a call that enters guest code and is to return to `next`: its target
has no name, or one that none of the emulators answers to. -/
def EntersGuest (cpu : Cpu) (linkage : Linkage) (next : UInt32) : Prop :=
  ∃ target, cpu.Calls target next ∧ ∀ symbol, linkage.imports.name? target = some symbol →
    ((consult symbol linkage.emulators).run (cpu.dropRep.called next)).result = .ok none

/-- The instruction at EIP is a call or a return, and its return address is stored at `slot`. -/
inductive UsesSlot (cpu : Cpu) : (slot : UInt32) → Prop where
  | call {target next : UInt32} (hcalls : cpu.Calls target next) : UsesSlot cpu (cpu.esp - 4)
  | return {released : UInt32} (hreturns : cpu.Returns released) : UsesSlot cpu cpu.esp

variable {cpu cpu' : Cpu} {linkage : Linkage} {target next released slot : UInt32}

/-- The bytes at EIP are one call at most. -/
theorem Calls.unique {target' next' : UInt32} (h : cpu.Calls target next)
    (h' : cpu.Calls target' next') : target = target' ∧ next = next' := by
  have hother (hlow : 0xd0 ≤ cpu.codeByte 1) : cpu.codeByte 1 ≠ 0x15 := by
    intro hform
    rw [hform] at hlow
    revert hlow
    decide
  cases h with
  | relative hopcode =>
    cases h' with
    | relative => exact ⟨rfl, rfl⟩
    | register hopcode' | slot hopcode' => exact absurd (hopcode.symm.trans hopcode') (by decide)
  | register hopcode hlow =>
    cases h' with
    | relative hopcode' => exact absurd (hopcode.symm.trans hopcode') (by decide)
    | register => exact ⟨rfl, rfl⟩
    | slot _ hform => exact absurd hform (hother hlow)
  | slot hopcode hform =>
    cases h' with
    | relative hopcode' => exact absurd (hopcode.symm.trans hopcode') (by decide)
    | register _ hlow => exact absurd hform (hother hlow)
    | slot => exact ⟨rfl, rfl⟩

/-- No call is a return. -/
theorem Calls.not_returns (h : cpu.Calls target next) : ¬ cpu.Returns released := by
  intro hreturns
  rcases h.opcode with hcall | hcall <;> rcases hreturns.opcode with hreturn | hreturn <;>
    exact absurd (hcall.symm.trans hreturn) (by decide)

theorem Calls.usesSlot_iff (h : cpu.Calls target next) :
    cpu.UsesSlot slot ↔ slot = cpu.esp - 4 := by
  constructor
  · rintro (hcalls | hreturns)
    · rfl
    · exact absurd hreturns h.not_returns
  · rintro rfl
    exact .call h

theorem Returns.usesSlot_iff (h : cpu.Returns released) : cpu.UsesSlot slot ↔ slot = cpu.esp := by
  constructor
  · rintro (hcalls | hreturns)
    · exact absurd h hcalls.not_returns
    · rfl
  · rintro rfl
    exact .return h

/-- **A call** notes its frame if it enters guest code, and else leaves none at its slot. -/
theorem frames_of_calls (hhost : linkage.Within SameStack) (h : cpu.Dispatches linkage cpu')
    (hcalls : cpu.Calls target next) :
    (cpu.EntersGuest linkage next ∧ cpu'.frames = cpu.frames.insert (cpu.esp - 4) next ∧
      cpu'.esp = cpu.esp - 4) ∨
    ((∀ next', ¬ cpu.EntersGuest linkage next') ∧
      cpu'.frames = cpu.frames.erase (cpu.esp - 4)) := by
  obtain ⟨-, entered, hends, rfl⟩ := h.callEnds hcalls
  cases hends with
  | unnamed hname =>
    refine .inl ⟨⟨target, hcalls, fun symbol hsymbol => ?_⟩, rfl, rfl⟩
    cases hname.symm.trans hsymbol
  | @unserved symbol asked events hname hconsult =>
    -- the emulators leave frames and stack pointer as the call has left them
    obtain ⟨hframes, hesp⟩ := (within_consult symbol hhost).of_run hconsult
    refine .inl ⟨⟨target, hcalls, fun symbol' hsymbol' => ?_⟩, hframes, hesp⟩
    cases hname.symm.trans hsymbol'
    rw [hconsult]
  | @served symbol emulator result asked events hname hconsult =>
    obtain ⟨hframes, hesp⟩ := (within_consult symbol hhost).of_run hconsult
    refine .inr ⟨?_, ?_⟩
    · rintro next' ⟨target', hcalls', hguest⟩
      obtain ⟨rfl, rfl⟩ := hcalls.unique hcalls'
      have hnone := hguest symbol hname
      rw [hconsult] at hnone
      cases hnone
    · change asked.frames.erase asked.esp = _
      rw [hframes, hesp]
      exact erase_insert_frames cpu.frames (cpu.esp - 4) next

theorem frames_of_returns (h : cpu.Dispatches linkage cpu') (hreturns : cpu.Returns released) :
    cpu'.frames = cpu.frames.erase cpu.esp := by
  obtain ⟨events, hrun⟩ := h
  rw [dispatch_of_returns hreturns] at hrun
  cases hrun
  rfl

/-- **What one instruction does to a slot.** The frame there is the one that the instruction has
noted, or the one from before if the instruction does not use the slot. -/
theorem frames_of_dispatch (hhost : linkage.Within SameStack) (h : cpu.Dispatches linkage cpu') :
    cpu'.frames[slot]? = some next ↔
      (cpu.EntersGuest linkage next ∧ slot = cpu.esp - 4) ∨
        (cpu.frames[slot]? = some next ∧ ¬ cpu.UsesSlot slot) := by
  -- a call uses the slot below the stack pointer, a return the one at it, and nothing else uses any
  by_cases hcall : ∃ target next, cpu.Calls target next
  · obtain ⟨target, next', hcalls⟩ := hcall
    rw [hcalls.usesSlot_iff]
    rcases frames_of_calls hhost h hcalls with ⟨henters, hframes, -⟩ | ⟨hanswered, hframes⟩
    · have hnext : cpu.EntersGuest linkage next ↔ next' = next := by
        constructor
        · rintro ⟨target', hcalls', -⟩
          exact (hcalls.unique hcalls').2
        · rintro rfl
          exact henters
      rw [hframes, Std.ExtTreeMap.getElem?_insert, hnext]
      by_cases hslot : slot = cpu.esp - 4
      · simp [hslot]
      · simp [hslot, Ne.symm hslot]
    · rw [hframes, Std.ExtTreeMap.getElem?_erase]
      by_cases hslot : slot = cpu.esp - 4
      · simp [hslot, hanswered next]
      · simp [hslot, Ne.symm hslot]
  · have hguest : ¬ cpu.EntersGuest linkage next := fun ⟨target, hcalls, _⟩ =>
      hcall ⟨target, next, hcalls⟩
    by_cases hreturn : ∃ released, cpu.Returns released
    · obtain ⟨released, hreturns⟩ := hreturn
      rw [frames_of_returns h hreturns, Std.ExtTreeMap.getElem?_erase, hreturns.usesSlot_iff]
      by_cases hslot : slot = cpu.esp
      · simp [hslot, hguest]
      · simp [hslot, Ne.symm hslot, hguest]
    · have hproceeds : cpu.Proceeds cpu' :=
        ⟨fun target next hcalls => hcall ⟨target, next, hcalls⟩,
          fun released hreturns => hreturn ⟨released, hreturns⟩, linkage, h⟩
      have hunused : ¬ cpu.UsesSlot slot := by
        rintro (hcalls | hreturns)
        · exact hcall ⟨_, _, hcalls⟩
        · exact hreturn ⟨_, hreturns⟩
      rw [hproceeds.frames_eq]
      simp [hguest, hunused]

/-- A call that enters guest code leaves the stack pointer at its slot. -/
theorem EntersGuest.esp (hhost : linkage.Within SameStack) (h : cpu.Dispatches linkage cpu')
    (henters : cpu.EntersGuest linkage next) : cpu'.esp = cpu.esp - 4 := by
  obtain ⟨target, hcalls, -⟩ := id henters
  rcases frames_of_calls hhost h hcalls with ⟨-, -, hesp⟩ | ⟨hanswered, -⟩
  · exact hesp
  · exact absurd henters (hanswered next)

theorem mem_callFrames {entry : UInt32 × UInt32} :
    entry ∈ cpu.callFrames ↔ cpu.frames[entry.1]? = some entry.2 := by
  rw [callFrames, Std.ExtTreeMap.mem_toList_iff_getElem?_eq_some]

/-- No frame is listed whose slot lies below the stack pointer. -/
def NoneStale (cpu : Cpu) : Prop := ∀ entry ∈ cpu.callFrames, cpu.esp ≤ entry.1

/-- The instruction leaves the stack pointer above the slot of a frame that is listed, although it
does not use the slot. -/
def Strands (cpu cpu' : Cpu) : Prop :=
  ∃ entry ∈ cpu.callFrames, entry.1 < cpu'.esp ∧ ¬ cpu.UsesSlot entry.1

/-- **An instruction leaves stale frames** exactly if it strands one. -/
theorem noneStale_iff_not_strands (hhost : linkage.Within SameStack)
    (h : cpu.Dispatches linkage cpu') : cpu'.NoneStale ↔ ¬ cpu.Strands cpu' := by
  constructor
  · rintro hafter ⟨⟨slot, next⟩, hentry, hbelow, hunused⟩
    have hlisted : (slot, next) ∈ cpu'.callFrames :=
      mem_callFrames.mpr ((frames_of_dispatch hhost h).mpr
        (.inr ⟨mem_callFrames.mp hentry, hunused⟩))
    exact absurd (hafter _ hlisted) (UInt32.not_le.mpr hbelow)
  · rintro hstrands ⟨slot, next⟩ hentry
    -- a frame that has just been noted is at the stack pointer, and so is not below it
    rcases (frames_of_dispatch hhost h).mp (mem_callFrames.mp hentry)
      with ⟨henters, rfl⟩ | ⟨hold, hunused⟩
    · exact UInt32.le_of_eq (henters.esp hhost h)
    · have hnot (hbelow : slot < cpu'.esp) : False :=
        hstrands ⟨(slot, next), mem_callFrames.mpr hold, hbelow, hunused⟩
      exact UInt32.not_lt.mp hnot

end Cpu

/-! ## Runs -/

section Runs

variable {cpu : Cpu} {linkage : Nat → Linkage} {n : Nat}

theorem dispatches_after (hrun : standard.Succeeds linkage cpu n) {i : Nat} (hi : i < n) :
    (standard.after linkage cpu i).Dispatches (linkage i) (standard.after linkage cpu (i + 1)) := by
  have hresult := hrun i hi
  rw [Cpu.Dispatches, after]
  generalize (standard.dispatch (linkage i)).run (standard.after linkage cpu i) = outcome at hresult
  obtain ⟨result, cpu', events⟩ := outcome
  obtain rfl : result = .ok () := hresult
  exact ⟨events, rfl⟩

/-- **The frames after a run** of instructions that succeed are those of the calls that have
entered guest code, as long as no later call or return has used their slot. -/
theorem frames_after (hfresh : cpu.frames = ∅) (hhost : ∀ i, (linkage i).Within Cpu.SameStack)
    (hrun : standard.Succeeds linkage cpu n) (slot next : UInt32) :
    (standard.after linkage cpu n).frames[slot]? = some next ↔
      ∃ i < n, (standard.after linkage cpu i).EntersGuest (linkage i) next ∧
        slot = (standard.after linkage cpu i).esp - 4 ∧
        ∀ j, i < j → j < n → ¬ (standard.after linkage cpu j).UsesSlot slot := by
  induction n with
  | zero => simp [after, hfresh]
  | succ n ih =>
    have hlastDispatch := dispatches_after hrun (Nat.lt_succ_self n)
    have hlast (i : Nat) :
        (∀ j, i < j → j < n + 1 → ¬ (standard.after linkage cpu j).UsesSlot slot) ↔
          (∀ j, i < j → j < n → ¬ (standard.after linkage cpu j).UsesSlot slot) ∧
            (i < n → ¬ (standard.after linkage cpu n).UsesSlot slot) := by
      constructor
      · exact fun h => ⟨fun j hj hjn => h j hj (by omega), fun hi => h n hi (Nat.lt_succ_self n)⟩
      · rintro ⟨hearlier, hn⟩ j hj hjn
        rcases Nat.lt_succ_iff_lt_or_eq.mp hjn with hlt | rfl
        · exact hearlier j hj hlt
        · exact hn hj
    -- a frame is that of the last instruction, or an earlier one that the last instruction leaves
    rw [Cpu.frames_of_dispatch (hhost n) hlastDispatch, ih (hrun.mono (Nat.le_succ n))]
    constructor
    · rintro (⟨henters, hslot⟩ | ⟨⟨i, hi, henters, hslot, hunused⟩, hn⟩)
      · refine ⟨n, Nat.lt_succ_self n, henters, hslot, fun j hj hjn => ?_⟩
        omega
      · exact ⟨i, Nat.lt_succ_of_lt hi, henters, hslot, (hlast i).mpr ⟨hunused, fun _ => hn⟩⟩
    · rintro ⟨i, hi, henters, hslot, hunused⟩
      rcases Nat.lt_succ_iff_lt_or_eq.mp hi with hlt | rfl
      · obtain ⟨hearlier, hn⟩ := (hlast i).mp hunused
        exact .inr ⟨⟨i, hlt, henters, hslot, hearlier⟩, hn hlt⟩
      · exact .inl ⟨henters, hslot⟩

/-- What the emulated libraries do leaves frames and stack pointer alone. -/
theorem libraries_sameStack : ∀ emulator ∈ Win32.libraries, emulator.Within Cpu.SameStack := by
  intro emulator hmem
  simp only [Win32.libraries, List.mem_cons, List.not_mem_nil, or_false] at hmem
  rcases hmem with rfl | rfl
  · exact FunctionTable.emulator_within
      (fun _ _ h => Cpu.libraryFunction_within (.inl h)) "kernel32"
  · exact FunctionTable.emulator_within (fun _ _ h => Cpu.libraryFunction_within (.inr h)) "user32"

/-- **The frames that are listed.** A run starts in a state without frames, such as a load leaves
it, under emulators that leave frames and stack pointer alone, such as the emulated libraries. All
of its instructions succeed. Then

* the frames listed in the end are those of the calls that have entered guest code, with the slot
  and the return address of the call, as long as no later call or return has used the slot;
* none is listed at first. After an instruction, all the frames listed are at or above the stack
  pointer if and only if it has not left the stack pointer above the slot of a frame that it does
  not use, be it by a POP, by LEAVE, by a move into ESP, or by a return or a call that takes more
  off the stack than its own return address. -/
theorem callFrames_listed (hfresh : cpu.frames = ∅)
    (hhost : ∀ i, (linkage i).Within Cpu.SameStack) (hrun : standard.Succeeds linkage cpu n) :
    let states := standard.after linkage cpu
    (∀ slot next, (slot, next) ∈ (states n).callFrames ↔
      ∃ i < n, (states i).EntersGuest (linkage i) next ∧ slot = (states i).esp - 4 ∧
        ∀ j, i < j → j < n → ¬ (states j).UsesSlot slot) ∧
    (states 0).callFrames = [] ∧
    (∀ i < n, (∀ entry ∈ (states (i + 1)).callFrames, (states (i + 1)).esp ≤ entry.1) ↔
      ¬ ∃ entry ∈ (states i).callFrames,
        entry.1 < (states (i + 1)).esp ∧ ¬ (states i).UsesSlot entry.1) := by
  intro states
  refine ⟨fun slot next => ?_, ?_, fun i hi => ?_⟩
  · exact Cpu.mem_callFrames.trans (frames_after hfresh hhost hrun slot next)
  · show cpu.frames.toList = []
    rw [hfresh]
    rfl
  · exact Cpu.noneStale_iff_not_strands (hhost i) (dispatches_after hrun hi)

end Runs

/-! ## A return address that is popped -/

open Sandbox (codeFile codeImage CodeLoaded Loadable)

/-- A call of the next instruction, and POP EBX, with which a program finds out where it lies. -/
def popCode : List UInt8 := [0xe8, 0x00, 0x00, 0x00, 0x00, 0x5b]

theorem loadable_popCode : Loadable popCode := ⟨by decide +kernel, by decide⟩

/-- The state between the two instructions. -/
def popCalled (cpu : Cpu) : Cpu := ((cpu.dropRep.called 0x401005).jump 0x401005).retire

section Pop

variable {s : Sandbox Unit} (h : CodeLoaded popCode (CommandLine.sandbox {}) s)

include h

theorem esp_popCode : s.cpu.esp = 0x80000 := h.esp

theorem frames_popCode : s.cpu.frames = ∅ := by
  obtain ⟨memory, hcpu⟩ := h.cpu
  rw [hcpu]
  rfl

theorem host_popCode : s.linkage.Within Cpu.SameStack := by
  rw [h.linkage]
  exact libraries_sameStack

theorem calls_popCode : s.cpu.Calls 0x401005 0x401005 := by
  have hopcode : s.cpu.opcode = 0xe8 := by
    rw [Cpu.opcode, h.eip]
    exact h.read8 0x401000 (by decide)
  have htarget : s.cpu.codeDword 1 = 0 := by
    simp (disch := decide) only [Cpu.codeDword, Memory.read32, h.eip, h.read8]
    decide
  have hcalls := Cpu.Calls.relative hopcode
  rw [htarget, h.eip] at hcalls
  exact hcalls

/-- Nothing is imported, so that the call enters guest code. -/
theorem entersGuest_popCode : s.cpu.EntersGuest s.linkage 0x401005 := by
  refine ⟨0x401005, calls_popCode h, fun symbol hsymbol => ?_⟩
  rw [h.linkage] at hsymbol
  cases hsymbol

theorem dispatch_popCode : (standard.dispatch s.linkage).run s.cpu =
    ⟨.ok (), popCalled s.cpu, standard.preamble s.cpu⟩ := by
  have hwritable : s.cpu.memory.Writable (s.cpu.esp - 4) 4 := by
    intro x hx
    have hpage : pageNumber x < 0x400 := by
      rw [esp_popCode h, Memory.sub_lt_four_iff] at hx
      rcases hx with rfl | rfl | rfl | rfl <;> decide
    exact h.protectionAt x hpage
  refine dispatch_unnamed (calls_popCode h) hwritable ?_
  rw [h.linkage]
  rfl

theorem esp_popCalled : (popCalled s.cpu).esp = 0x7fffc := by
  have hslot : (popCalled s.cpu).esp = s.cpu.esp - 4 := rfl
  rw [hslot, esp_popCode h]
  decide

theorem opcode_popCalled : (popCalled s.cpu).opcode = 0x5b := by
  have hopcode : s.cpu.memory.read8 0x401005 = 0x5b := h.read8 0x401005 (by decide)
  have hslot : s.cpu.esp - 4 = 0x7fffc := by
    rw [esp_popCode h]
    decide
  have hkept := Memory.read8_store32_of_le s.cpu.memory (s.cpu.esp - 4) 0x401005 (x := 0x401005)
    (by rw [hslot]; decide)
  exact hkept.trans hopcode

/-- POP EBX takes the return address off the stack. -/
theorem dispatch_popCalled : ∃ popped, (standard.dispatch s.linkage).run (popCalled s.cpu) =
    ⟨.ok (), popped, standard.preamble (popCalled s.cpu)⟩ ∧ popped.esp = 0x80000 := by
  have hhandler : standard.handler? 0x5b = some .popRegister := by
    rw [standard_handler?_eq]
    rfl
  have hrun := dispatch_run_dropRep s.linkage (by rw [opcode_popCalled h, hhandler]) rfl
  have hesp : (popCalled s.cpu).esp + 4 = 0x80000 := by
    rw [esp_popCalled h]
    decide
  rw [hrun, opcode_popCalled h]
  change ∃ popped, concluded _ ⟨.ok (), _, []⟩ = _ ∧ _
  rw [concluded_ok, List.append_nil]
  exact ⟨_, rfl, hesp⟩

/-- POP is neither a call nor a return. -/
theorem not_usesSlot_popCalled (slot : UInt32) : ¬ (popCalled s.cpu).UsesSlot slot := by
  rintro (hcalls | hreturns)
  · rcases hcalls.opcode with hcall | hcall <;> rw [opcode_popCalled h] at hcall <;>
      revert hcall <;> decide
  · rcases hreturns.opcode with hreturn | hreturn <;> rw [opcode_popCalled h] at hreturn <;>
      revert hreturn <;> decide

/-- Both instructions succeed, and ESP is back at the top of the stack. -/
theorem runs_popCode :
    standard.Succeeds (fun _ => s.linkage) s.cpu 2 ∧
    standard.after (fun _ => s.linkage) s.cpu 1 = popCalled s.cpu ∧
    (standard.after (fun _ => s.linkage) s.cpu 2).esp = 0x80000 := by
  have hcalled : standard.after (fun _ => s.linkage) s.cpu 1 = popCalled s.cpu := by
    rw [after, after, dispatch_popCode h]
  obtain ⟨popped, hrun, hesp⟩ := dispatch_popCalled h
  refine ⟨fun j hj => ?_, hcalled, ?_⟩
  · obtain rfl | rfl : j = 0 ∨ j = 1 := by omega
    · rw [after, dispatch_popCode h]
    · rw [hcalled, hrun]
  · have hpopped : standard.after (fun _ => s.linkage) s.cpu 2 = popped := by
      rw [after, hcalled, hrun]
    rw [hpopped, hesp]

/-- The call is the last instruction to use its slot. -/
theorem listed_popCode :
    let states := standard.after (fun _ => s.linkage) s.cpu
    ∃ i < 2, (states i).EntersGuest s.linkage 0x401005 ∧ 0x7fffc = (states i).esp - 4 ∧
      ∀ j, i < j → j < 2 → ¬ (states j).UsesSlot 0x7fffc := by
  intro states
  obtain ⟨-, hcalled, -⟩ := runs_popCode h
  refine ⟨0, by decide, entersGuest_popCode h, ?_, fun j hj hjn => ?_⟩
  · have hfirst : (states 0).esp = 0x80000 := esp_popCode h
    rw [hfirst]
    decide
  · obtain rfl : j = 1 := by omega
    have hsecond : states 1 = popCalled s.cpu := hcalled
    rw [hsecond]
    exact not_usesSlot_popCalled h _

end Pop

/-- The slot of the return address that has been popped is listed below the stack pointer. -/
theorem callFrames_listed_popCode :
    let s := ((CommandLine.sandbox {}).mount (codeImage popCode) (codeFile popCode)).sandbox
    let cpu' := standard.after (fun _ => s.linkage) s.cpu 2
    standard.Succeeds (fun _ => s.linkage) s.cpu 2 ∧
      (0x7fffc, 0x401005) ∈ cpu'.callFrames ∧ cpu'.esp = 0x80000 := by
  have hloaded := loadable_popCode.codeLoaded (CommandLine.sandbox {})
  generalize ((CommandLine.sandbox {}).mount (codeImage popCode) (codeFile popCode)).sandbox = s
    at hloaded ⊢
  obtain ⟨hrun, -, hesp⟩ := runs_popCode hloaded
  obtain ⟨hlisted, -⟩ :=
    callFrames_listed (frames_popCode hloaded) (fun _ => host_popCode hloaded) hrun
  have hframe := (hlisted 0x7fffc 0x401005).mpr (listed_popCode hloaded)
  exact ⟨hrun, hframe, hesp⟩

/-- **A listed frame may be stale.** The program is loaded and runs without a fault, and the stack
pointer stays between the top of the stack and the bottom of the address space; in the end a frame
is listed whose slot lies below it. -/
theorem not_forall_noneStale :
    ¬ ∀ (s : Sandbox Unit) (image : Pe.Image) (file : Pe.Bytes) (mapped : LoadedImage),
      (s.mount image file).result = .ok mapped → ∀ n,
        let loaded := (s.mount image file).sandbox
        let states := standard.after (fun _ => loaded.linkage) loaded.cpu
        standard.Succeeds (fun _ => loaded.linkage) loaded.cpu n →
          (∀ i ≤ n, 4 ≤ (states i).esp ∧ (states i).esp ≤ s.config.stackTop) →
            ∀ entry ∈ (states n).callFrames, (states n).esp ≤ entry.1 := by
  intro hall
  have hpop := hall (CommandLine.sandbox {}) (codeImage popCode) (codeFile popCode) _
    (loadable_popCode.result_mount _) 2
  have hloaded := loadable_popCode.codeLoaded (CommandLine.sandbox {})
  have htop : (CommandLine.sandbox {}).config.stackTop = 0x80000 := rfl
  rw [htop] at hpop
  generalize ((CommandLine.sandbox {}).mount (codeImage popCode) (codeFile popCode)).sandbox = s
    at hloaded hpop
  obtain ⟨hrun, hcalled, hesp⟩ := runs_popCode hloaded
  have hwithin : ∀ i ≤ 2, 4 ≤ (standard.after (fun _ => s.linkage) s.cpu i).esp ∧
      (standard.after (fun _ => s.linkage) s.cpu i).esp ≤ 0x80000 := by
    intro i hi
    obtain rfl | rfl | rfl : i = 0 ∨ i = 1 ∨ i = 2 := by omega
    · rw [after, esp_popCode hloaded]
      decide
    · rw [hcalled, esp_popCalled hloaded]
      decide
    · rw [hesp]
      decide
  have hlisted := (frames_after (frames_popCode hloaded) (fun _ => host_popCode hloaded) hrun
    _ _).mpr (listed_popCode hloaded)
  have hstale := hpop hrun hwithin (0x7fffc, 0x401005) (Cpu.mem_callFrames.mpr hlisted)
  rw [hesp] at hstale
  revert hstale
  decide

end Ia32
