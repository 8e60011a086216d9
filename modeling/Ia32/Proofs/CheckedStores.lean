import Ia32.Instruction.Block
import Ia32.Memory.Lemmas
import Ia32.Proofs.Effect

/-!
# Stores, step by step

A store is a loop of checks and, after it, a loop of stores of single bytes; each step leaves the
state as far as it has come. The checks change nothing, so that a store which is refused has left
nothing behind. PUSH and the block operations move their pointers after the store.

* `run_checkAll`, `run_storeAll`: what the two loops do.
* `storeChecked_eq`: **a store by steps is a guarded change of the memory**, and so are its three
  sizes.
* `pushBySteps_eq`: a push by steps is `Cpu.push?`.
* `BlockOp.bySteps_eq`: an element of a block operation by steps is `BlockOp.element?`.
-/

namespace Ia32

namespace Exec

variable {ε : Type} (refuse : AccessViolation → ε)

/-- Checks that a byte may be stored at `a`. -/
def check (a : UInt32) : Exec ε Unit := do
  let cpu ← state
  match cpu.memory.denialAt? a with
  | some violation => fail (refuse violation)
  | none => pure ()

/-- Stores a byte, unchecked. -/
def store8 (a : UInt32) (b : UInt8) : Exec ε Unit :=
  update fun cpu => { cpu with memory := cpu.memory.store8 a b }

/-- Checks addresses one by one, and then stores bytes from `a` on one by one. -/
def storeChecked (addresses : List UInt32) (a : UInt32) (bytes : List UInt8) : Exec ε Unit := do
  forM addresses (check refuse)
  forM bytes.zipIdx fun (b, i) => store8 (a + UInt32.ofNat i) b

/-! ## The two loops -/

theorem check_run (a : UInt32) (cpu : Cpu) : (check refuse a).run cpu =
    match cpu.memory.denialAt? a with
    | some violation => ⟨.error (refuse violation), cpu, []⟩
    | none => ⟨.ok (), cpu, []⟩ := by
  unfold check
  rw [bind_run, state_run]
  dsimp only
  cases cpu.memory.denialAt? a <;> rfl

/-- The loop of checks ends with the first address that refuses, and changes nothing. -/
theorem run_checkAll (addresses : List UInt32) (cpu : Cpu) :
    (forM addresses (check refuse)).run cpu =
      match cpu.memory.denial? addresses with
      | some violation => ⟨.error (refuse violation), cpu, []⟩
      | none => ⟨.ok (), cpu, []⟩ := by
  induction addresses with
  | nil => rfl
  | cons a addresses ih =>
    unfold Memory.denial? at ih ⊢
    rw [List.forM_cons, bind_run, check_run, List.findSome?_cons]
    cases cpu.memory.denialAt? a with
    | some violation => rfl
    | none =>
      dsimp only
      rw [ih]
      cases addresses.findSome? cpu.memory.denialAt? <;> rfl

/-- The loop of stores stores the run of its bytes. -/
theorem run_storeAll (a : UInt32) (bytes : List UInt8) (k : Nat) (cpu : Cpu) :
    (forM (bytes.zipIdx k) fun (b, i) => store8 (a + UInt32.ofNat i) b).run cpu =
      (⟨.ok (), { cpu with memory := cpu.memory.storeBytes (a + UInt32.ofNat k) bytes }, []⟩ :
        Outcome ε Unit) := by
  induction bytes generalizing k cpu with
  | nil => rfl
  | cons b bytes ih =>
    have hnext : a + UInt32.ofNat (k + 1) = a + UInt32.ofNat k + 1 := by
      rw [UInt32.ofNat_add, UInt32.add_assoc]
      rfl
    have hbyte : (store8 (a + UInt32.ofNat k) b : Exec ε Unit).run cpu =
        ⟨.ok (), { cpu with memory := cpu.memory.store8 (a + UInt32.ofNat k) b }, []⟩ := rfl
    rw [List.zipIdx_cons, List.forM_cons, bind_run, hbyte]
    dsimp only
    rw [ih, hnext]
    rfl

/-- **A store by steps is a guarded change of the memory.** -/
theorem storeChecked_eq (addresses : List UInt32) (a : UInt32) (bytes : List UInt8) :
    storeChecked refuse addresses a bytes =
      store refuse (·.guarded addresses (·.storeBytes a bytes)) := by
  apply Exec.ext
  intro cpu
  rw [storeChecked, bind_run, run_checkAll, store, attempt_run, Memory.guarded]
  cases cpu.memory.denial? addresses with
  | some violation => rfl
  | none =>
    dsimp only
    rw [run_storeAll]
    have hfirst : a + UInt32.ofNat 0 = a := UInt32.add_zero a
    rw [hfirst]
    rfl

/-- **A store that is refused leaves nothing behind.** -/
theorem run_storeChecked_of_error {addresses : List UInt32} {a : UInt32} {bytes : List UInt8}
    {cpu : Cpu} {e : ε} (h : ((storeChecked refuse addresses a bytes).run cpu).result = .error e) :
    (storeChecked refuse addresses a bytes).run cpu = ⟨.error e, cpu, []⟩ := by
  rw [storeChecked_eq] at h ⊢
  exact failsFirst_attempt (ι := Unit) _ () cpu e h ()

/-! ## The three sizes -/

theorem storeChecked_byte (a : UInt32) (b : UInt8) :
    storeChecked refuse [a] a [b] = store refuse (·.write8 a b) :=
  storeChecked_eq refuse [a] a [b]

theorem storeChecked_dword (a v : UInt32) :
    storeChecked refuse [a, a + 1, a + 2, a + 3] a [byte0 v, byte1 v, byte2 v, byte3 v] =
      store refuse (·.write32 a v) := by
  rw [storeChecked_eq]
  unfold Memory.write32
  simp only [Memory.store32_eq_storeBytes]

theorem storeChecked_run (a : UInt32) (bytes : List UInt8) :
    storeChecked refuse (Memory.probes a bytes.length) a bytes =
      store refuse (·.writeBytes a bytes) :=
  storeChecked_eq refuse _ a bytes

/-! ## Pushes -/

/-- Pushes a dword: the stack pointer moves after the store. -/
def pushBySteps (v : UInt32) : Exec Fault Unit := do
  let cpu ← state
  let slot := cpu.esp - 4
  storeChecked .accessViolation [slot, slot + 1, slot + 2, slot + 3] slot
    [byte0 v, byte1 v, byte2 v, byte3 v]
  set .esp slot

/-- **A push by steps is a push.** -/
theorem pushBySteps_eq (v : UInt32) : pushBySteps v = push v := by
  apply Exec.ext
  intro cpu
  unfold pushBySteps
  rw [bind_run, state_run]
  dsimp only
  rw [storeChecked_dword, bind_run, store, attempt_run, push, attempt_run, Cpu.push?]
  cases cpu.memory.write32 (cpu.esp - 4) v <;> rfl

end Exec

/-! ## Elements of block operations -/

namespace BlockOp

open Exec

/-- One element: the pointers move after the store. -/
def bySteps (op : BlockOp) : Exec Fault Unit := do
  let cpu ← state
  let source := cpu.registers.esi
  let target := cpu.registers.edi
  match op with
  | copyByte =>
    storeChecked .accessViolation [target] target [cpu.memory.read8 source]
    update (·.stride .esi 1)
    update (·.stride .edi 1)
  | copyDword =>
    let v := cpu.memory.read32 source
    storeChecked .accessViolation [target, target + 1, target + 2, target + 3] target
      [byte0 v, byte1 v, byte2 v, byte3 v]
    update (·.stride .esi 4)
    update (·.stride .edi 4)
  | fillByte =>
    storeChecked .accessViolation [target] target [cpu.al]
    update (·.stride .edi 1)
  | loadByte =>
    update (·.setAl (cpu.memory.read8 source))
    update (·.stride .esi 1)
  | scanByte =>
    update fun cpu => { cpu with flags := cpu.flags.compare cpu.al (cpu.memory.read8 target) }
    update (·.stride .edi 1)

/-- **An element by steps is an element.** -/
theorem bySteps_eq (op : BlockOp) :
    op.bySteps = attempt fun cpu => (op.element? cpu).mapError .accessViolation := by
  apply Exec.ext
  intro cpu
  unfold bySteps
  rw [bind_run, state_run, attempt_run]
  cases op with
  | copyByte =>
    dsimp only [element?]
    rw [storeChecked_byte, bind_run, store, attempt_run]
    cases cpu.memory.write8 cpu.registers.edi (cpu.memory.read8 cpu.registers.esi) <;> rfl
  | copyDword =>
    dsimp only [element?]
    rw [storeChecked_dword, bind_run, store, attempt_run]
    cases cpu.memory.write32 cpu.registers.edi (cpu.memory.read32 cpu.registers.esi) <;> rfl
  | fillByte =>
    dsimp only [element?]
    rw [storeChecked_byte, bind_run, store, attempt_run]
    cases cpu.memory.write8 cpu.registers.edi cpu.al <;> rfl
  | loadByte | scanByte => rfl

end BlockOp

end Ia32
