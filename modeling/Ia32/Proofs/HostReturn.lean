import Ia32.Proofs.HostCall

/-!
# Two ways back from the host

A typed host function is returned from in one of two ways. A call instruction takes its return
address off the stack and cleans up after the function (`Cpu.returnFromHost`); a table that is
called by itself returns as its convention says (`Cpu.complete`).

* `Cpu.complete_pushed`: how a table returns to an address that has just been pushed.
* `host_returns_agree`: **the two ways lead to the same state**, but for the stack pointer under
  `cdecl` and the frame of the return address.
-/

namespace Ia32

open Exec

variable {cpu pushed : Cpu} {next : UInt32}

namespace Cpu

/-- A call notes a frame on top of what its push leaves. -/
theorem called_eq_recordFrame (hpush : cpu.push? next = .ok pushed) :
    cpu.called next = pushed.recordFrame next := by
  obtain ⟨-, rfl⟩ := push?_eq_ok_iff.mp hpush
  rfl

/-- A return to an address that has just been pushed: `stdcall` takes it off the stack again,
together with the arguments, and `cdecl` leaves it there. -/
theorem complete_pushed (hpush : cpu.push? next = .ok pushed) (convention : Convention)
    (result : UInt32) (n : Nat) :
    pushed.complete convention result n =
      { pushed with
        registers :=
          { cpu.registers with
            eax := result
            esp :=
              match convention with
              | .stdcall => cpu.esp + UInt32.ofNat (4 * n)
              | .cdecl => cpu.esp - 4 }
        eip := next } := by
  have hregisters : pushed.registers = { cpu.registers with esp := cpu.esp - 4 } := by
    rw [(push?_eq_ok_iff.mp hpush).2]
    rfl
  have hnext : pushed.memory.read32 pushed.esp = next := by
    rw [(push?_eq_ok_iff.mp hpush).2]
    exact cpu.memory.read32_store32 _ next
  unfold complete
  dsimp only
  rw [hnext]
  cases convention with
  | cdecl => simp only [set, jump, Registers.set, hregisters]
  | stdcall =>
    have hesp : pushed.esp + (UInt32.ofNat (4 * n) + 4) = cpu.esp + UInt32.ofNat (4 * n) := by
      rw [esp, hregisters]
      grind
    simp only [set, jump, Registers.set, Convention.calleeCleanup_stdcall, hesp]
    rw [hregisters]

end Cpu

/-- **The two ways of returning from a host function agree.** The return address can be pushed,
the target is the address of a symbol, and the first of the registries with the symbol has a typed
function for it. Then a call of the target and a call of the table, with the return address pushed
before, both run the function once, at the same arguments, and

* the call of the table puts the result into EAX and goes on at the return address, and leaves
  all but ESP as the push has left it;
* so does the call of the target, but for the frames;
* under `stdcall` both leave ESP past the arguments, and under `cdecl` the call of the target
  leaves it where it was before the push, and the call of the table four bytes below;
* a frame is the same for both, unless it is that of the return address. -/
theorem host_returns_agree (hpush : cpu.push? next = .ok pushed)
    {imports : Imports} {target : UInt32} {symbol : String}
    (hsymbol : imports.name? target = some symbol)
    {registries : List Registry} {registry : Registry}
    (hfirst : registries.find? (·.table.contains symbol) = some registry)
    {parameters : List ParamType} {body : List Param → UInt32 × List Event}
    (hfunction : registry.table.function? symbol = some (.typed parameters body)) :
    let answer := body (pushed.arguments parameters)
    ∃ served returned : Cpu,
      (enterCall { imports, emulators := registries.map Registry.emulator } target next).run cpu =
        ⟨.ok (), served, answer.2 ++ [.served registry.name symbol answer.1]⟩ ∧
      registry.table.call? symbol pushed = some ⟨answer.1, returned, answer.2⟩ ∧
      returned =
        { pushed with
          registers := { pushed.registers with eax := answer.1, esp := returned.esp }
          eip := next } ∧
      served =
        { returned with
          registers := { returned.registers with esp := served.esp }
          frames := served.frames } ∧
      (match registry.table.convention with
        | .stdcall =>
          served.esp = cpu.esp + UInt32.ofNat (4 * parameters.length) ∧ returned.esp = served.esp
        | .cdecl => served.esp = cpu.esp ∧ returned.esp = served.esp - 4) ∧
      ∀ slot, slot ≠ cpu.esp - 4 → served.frames[slot]? = returned.frames[slot]? := by
  intro answer
  obtain ⟨hstack, hpushed⟩ := Cpu.push?_eq_ok_iff.mp hpush
  -- what a call notes beyond its push are the frames, and they are no arguments
  have hanswer : body ((cpu.called next).arguments parameters) = answer := by
    rw [Cpu.called_eq_recordFrame hpush]
    rfl
  have hserved := enterCall_run_served hsymbol hfirst hfunction hstack hanswer
  have hreturned : registry.table.call? symbol pushed =
      some ⟨answer.1, pushed.complete registry.table.convention answer.1 parameters.length,
        answer.2⟩ := by
    rw [FunctionTable.call?, hfunction]
    rfl
  rw [Cpu.returnFromHost_called, Registry.cleanup_emulator hfunction] at hserved
  rw [Cpu.complete_pushed hpush] at hreturned
  clear_value answer
  refine ⟨_, _, hserved, hreturned, ?_, ?_, ?_, ?_⟩
  · rw [hpushed]
    rfl
  · rw [hpushed]
    rfl
  · cases registry.table.convention with
    | cdecl => exact ⟨UInt32.add_zero cpu.esp, by simp⟩
    | stdcall => exact ⟨rfl, rfl⟩
  · intro slot hslot
    rw [hpushed]
    change (cpu.frames.erase (cpu.esp - 4))[slot]? = cpu.frames[slot]?
    rw [Std.ExtTreeMap.getElem?_erase]
    simp [Ne.symm hslot]

/-- A registry with one function, which leaves it to the caller to take its arguments off. -/
def subtractor : Registry where
  name := "subtractor"
  table := ({ convention := .cdecl } : FunctionTable).insert "Subtract"
    (.typed [.uint32, .int32] fun
      | [minuend, subtrahend] => (minuend.toUInt32 - subtrahend.toUInt32, [])
      | _ => (0, []))

/-- A processor with two arguments at the bottom of the address space, where its stack pointer
is: a return address goes to the top of it. -/
def subtractCall : Cpu where
  registers := { esp := 0 }
  memory := (({} : Memory).store32 0 7).store32 4 5

/-- The processor of `subtractCall` with a return address pushed. -/
def subtractPushed : Cpu where
  registers := { esp := 0xfffffffc }
  memory := subtractCall.memory.store32 0xfffffffc 0x1006

theorem host_returns_agree_subtract :
    ∃ served returned : Cpu, subtractCall.push? 0x1006 = .ok subtractPushed ∧
      ((enterCall
        { imports := .ofList [("Subtract", 0x7ff00000)]
          emulators := [⟨"kernel32", Win32.kernel32Table⟩, subtractor].map Registry.emulator }
        0x7ff00000 0x1006).run subtractCall).cpu = served ∧
      (subtractor.table.call? "Subtract" subtractPushed).map HostReply.cpu = some returned ∧
      served.registers = { eax := 2, esp := 0 } ∧
      returned.registers = { eax := 2, esp := 0xfffffffc } ∧
      served.eip = 0x1006 ∧ returned.eip = 0x1006 := by
  have hstack : subtractCall.memory.Writable (subtractCall.esp - 4) 4 := by
    intro a _
    simp [subtractCall]
  have hpush : subtractCall.push? 0x1006 = .ok subtractPushed :=
    Cpu.push?_eq_ok_iff.mpr ⟨hstack, rfl⟩
  have hsymbol : (Imports.ofList [("Subtract", 0x7ff00000)]).name? 0x7ff00000 =
      some "Subtract" := by rfl
  have hfirst : [⟨"kernel32", Win32.kernel32Table⟩, subtractor].find?
      (·.table.contains "Subtract") = some subtractor := by rfl
  obtain ⟨served, returned, hserved, hreturned, hleft, hagree, hesp, -⟩ :=
    host_returns_agree hpush hsymbol hfirst rfl
  have harguments : subtractPushed.arguments [.uint32, .int32] = [.uint32 7, .int32 5] := by
    have hseven : subtractPushed.memory.read32 0 = 7 := by
      simp [subtractPushed, subtractCall, Memory.read32, Memory.read8_store32]
    have hfive : subtractPushed.memory.read32 4 = 5 := by
      simp [subtractPushed, subtractCall, Memory.read32, Memory.read8_store32]
    have hminuend : subtractPushed.esp + UInt32.ofNat (4 * (0 + 1)) = 0 := by rfl
    have hsubtrahend : subtractPushed.esp + UInt32.ofNat (4 * (1 + 1)) = 4 := by rfl
    rw [Cpu.arguments, List.mapIdx_cons, List.mapIdx_cons, List.mapIdx_nil, hminuend, hseven,
      hsubtrahend, hfive]
    rfl
  rw [harguments] at hleft
  obtain ⟨hesp, hesp'⟩ := hesp
  rw [hesp] at hagree hesp'
  rw [hesp'] at hleft
  refine ⟨served, returned, hpush, by rw [hserved], by rw [hreturned]; rfl, ?_, ?_, ?_, ?_⟩
  · rw [hagree, hleft]
    rfl
  · rw [hleft]
    rfl
  · rw [hagree, hleft]
  · rw [hleft]

end Ia32
