import Ia32.Cpu.Lemmas
import Ia32.Instruction.Block
import Ia32.Memory.Lemmas
import Ia32.Proofs.Effect

/-!
# Elements of block operations

What the first `k` elements of a repetition do, as functions of the state in which it starts:
where they are read and stored (`BlockOp.source`, `BlockOp.target`), the memory that they leave
(`BlockOp.contents`), AL, the flags and the registers.

* `Reached op cpu k cpu'`: `cpu'` is what `k` elements make of `cpu`; `Underway` says besides
  that the repetition goes on there, and `Finished` that it has ended.
* `Reached.trans`: **elements add up.**
* `underway_one`: the operation on one element does one element.
-/

namespace Ia32

open Exec

/-- The value of a register that has moved past `k` elements of `size` bytes, in the direction
that the flag gives. -/
def Cpu.past (cpu : Cpu) (r : Register) (size : UInt32) (k : Nat) : UInt32 :=
  if cpu.flags.direction then cpu.get r - UInt32.ofNat k * size
  else cpu.get r + UInt32.ofNat k * size

/-- The opcode of a prefix. -/
def RepPrefix.opcode : RepPrefix → UInt8
  | rep => 0xf3
  | repne => 0xf2

namespace BlockOp

/-- The opcode of an operation. -/
def opcode : BlockOp → UInt8
  | copyByte => 0xa4
  | copyDword => 0xa5
  | fillByte => 0xaa
  | loadByte => 0xac
  | scanByte => 0xae

/-- How far an element moves ESI. -/
def sourceStep : BlockOp → UInt32
  | copyByte | loadByte => 1
  | copyDword => 4
  | fillByte | scanByte => 0

/-- How far an element moves EDI. -/
def targetStep : BlockOp → UInt32
  | copyByte | fillByte | scanByte => 1
  | copyDword => 4
  | loadByte => 0

/-- How many bytes an element stores. -/
def storeSize : BlockOp → UInt32
  | copyByte | fillByte => 1
  | copyDword => 4
  | loadByte | scanByte => 0

section Elements

variable (op : BlockOp) (cpu : Cpu)

/-- Where element `k` is read, and where ESI is then. -/
def source (k : Nat) : UInt32 := cpu.past .esi op.sourceStep k

/-- Where element `k` is stored or compared, and where EDI is then. -/
def target (k : Nat) : UInt32 := cpu.past .edi op.targetStep k

/-- Element `k` stores a byte at `a`. -/
def StoresAt (k : Nat) (a : UInt32) : Prop := a - op.target cpu k < op.storeSize

instance (k : Nat) (a : UInt32) : Decidable (op.StoresAt cpu k a) :=
  inferInstanceAs (Decidable (a - op.target cpu k < op.storeSize))

/-- The byte at every address after `k` elements, done one after the other. Each element is
read in full before it is stored. -/
def contents : Nat → UInt32 → UInt8
  | 0, a => cpu.memory.read8 a
  | k + 1, a =>
    if op.StoresAt cpu k a then
      if op = fillByte then cpu.al
      else contents k (op.source cpu k + (a - op.target cpu k))
    else contents k a

/-- AL after `k` elements: the last byte loaded. -/
def alAfter : Nat → UInt8
  | 0 => cpu.al
  | k + 1 => if op = loadByte then cpu.memory.read8 (op.source cpu k) else cpu.al

/-- The flags after `k` elements: those of the last comparison. -/
def flagsAfter : Nat → Flags
  | 0 => cpu.flags
  | k + 1 =>
    if op = scanByte then cpu.flags.compare cpu.al (cpu.memory.read8 (op.target cpu k))
    else cpu.flags

/-- The registers after `k` elements. -/
def registersAfter (k : Nat) : Registers :=
  { (cpu.setAl (op.alAfter cpu k)).registers with
    ecx := cpu.ecx - UInt32.ofNat k
    esi := op.source cpu k
    edi := op.target cpu k }

/-- The state is what `k` elements of a repetition make of `cpu`. Where EIP is, whether the
prefix is still pending and how pages are protected are left open. -/
structure Reached (k : Nat) (cpu' : Cpu) : Prop where
  registers : cpu'.registers = op.registersAfter cpu k
  flags : cpu'.flags = op.flagsAfter cpu k
  read8 : ∀ a, cpu'.memory.read8 a = op.contents cpu k a
  halted : cpu'.halted = cpu.halted
  frames : cpu'.frames = cpu.frames

/-- The repetition stands before element `k`, or is about to end there. -/
structure Underway (k : Nat) (cpu' : Cpu) : Prop extends op.Reached cpu k cpu' where
  eip : cpu'.eip = cpu.eip
  rep : cpu'.rep = cpu.rep
  retired : cpu'.retired = cpu.retired + UInt64.ofNat k
  protectionAt : ∀ a, cpu'.memory.protectionAt a = cpu.memory.protectionAt a
  memory : op.storeSize = 0 → cpu'.memory = cpu.memory

/-- The repetition has ended after `k` elements: EIP is past the operation. -/
structure Finished (k : Nat) (cpu' : Cpu) : Prop extends op.Reached cpu k cpu' where
  eip : cpu'.eip = cpu.eip + 1
  rep : cpu'.rep = none
  retired : cpu'.retired = cpu.retired + UInt64.ofNat k
  protectionAt : ∀ a, cpu'.memory.protectionAt a = cpu.memory.protectionAt a
  memory : op.storeSize = 0 → cpu'.memory = cpu.memory

end Elements

end BlockOp

/-! ## Positions -/

theorem Cpu.past_add {cpu cpu' : Cpu} {r : Register} {size : UInt32} {k : Nat}
    (hdirection : cpu'.flags.direction = cpu.flags.direction)
    (hget : cpu'.get r = cpu.past r size k) (j : Nat) :
    cpu'.past r size j = cpu.past r size (k + j) := by
  unfold past at hget ⊢
  rw [hget, hdirection, UInt32.ofNat_add]
  split <;> grind

@[simp] theorem Cpu.past_zero (cpu : Cpu) (r : Register) (size : UInt32) :
    cpu.past r size 0 = cpu.get r := by
  simp [past]

@[simp] theorem Cpu.past_size_zero (cpu : Cpu) (r : Register) (k : Nat) :
    cpu.past r 0 k = cpu.get r := by
  simp [past]

theorem Cpu.stride_eq_set (cpu : Cpu) (r : Register) (size : UInt32) :
    cpu.stride r size = cpu.set r (cpu.past r size 1) := by
  simp [stride, past]

namespace BlockOp

variable {op : BlockOp} {cpu cpu' cpu'' : Cpu} {k j : Nat}

theorem opcode_of_ofOpcode? {opcode : UInt8} (h : ofOpcode? opcode = some op) :
    opcode = op.opcode := by
  unfold ofOpcode? at h
  repeat' split at h
  all_goals cases h
  all_goals assumption

theorem opcode_injective : Function.Injective opcode := by
  intro op op' h
  cases op <;> cases op' <;> first | rfl | exact absurd h (by decide)

/-- No block operation is a prefix. -/
theorem opcode_ne_opcode (op : BlockOp) (kind : RepPrefix) : op.opcode ≠ kind.opcode := by
  cases op <;> cases kind <;> decide

/-- What no element stores at is as it was. -/
theorem contents_of_not_storesAt {a : UInt32} (h : ∀ i < k, ¬ op.StoresAt cpu i a) :
    op.contents cpu k a = cpu.memory.read8 a := by
  induction k with
  | zero => rfl
  | succ k ih =>
    rw [contents, if_neg (h k (Nat.lt_succ_self k)), ih fun i hi => h i (Nat.lt_succ_of_lt hi)]

theorem not_storesAt_of_storeSize (h : op.storeSize = 0) (a : UInt32) : ¬ op.StoresAt cpu k a := by
  rw [StoresAt, h]
  exact UInt32.not_lt_zero

theorem flagsAfter_of_ne (h : op ≠ scanByte) (k : Nat) : op.flagsAfter cpu k = cpu.flags := by
  cases k with
  | zero => rfl
  | succ k => rw [flagsAfter, if_neg h]

/-- A comparison leaves the direction alone. -/
theorem direction_flagsAfter (k : Nat) :
    (op.flagsAfter cpu k).direction = cpu.flags.direction := by
  cases k with
  | zero => rfl
  | succ k =>
    rw [flagsAfter]
    split <;> rfl

theorem alAfter_of_ne (h : op ≠ loadByte) (k : Nat) : op.alAfter cpu k = cpu.al := by
  cases k with
  | zero => rfl
  | succ k => rw [alAfter, if_neg h]

/-! ## Any number of elements -/

namespace Reached

/-- No element has been done in a state with the same registers, flags and bytes. -/
theorem of_same (hregisters : cpu'.registers = cpu.registers) (hflags : cpu'.flags = cpu.flags)
    (hread8 : ∀ a, cpu'.memory.read8 a = cpu.memory.read8 a) (hhalted : cpu'.halted = cpu.halted)
    (hframes : cpu'.frames = cpu.frames) : op.Reached cpu 0 cpu' where
  registers := by
    rw [hregisters, registersAfter, source, target, Cpu.past_zero, Cpu.past_zero, alAfter,
      Cpu.setAl_al]
    simp [Cpu.get, Registers.get]
  flags := hflags
  read8 := hread8
  halted := hhalted
  frames := hframes

section Composition

variable (h : op.Reached cpu k cpu')

include h

theorem direction : cpu'.flags.direction = cpu.flags.direction := by
  rw [h.flags, direction_flagsAfter]

theorem source_add (j : Nat) : op.source cpu' j = op.source cpu (k + j) :=
  Cpu.past_add h.direction (by rw [Cpu.get, h.registers]; rfl) j

theorem target_add (j : Nat) : op.target cpu' j = op.target cpu (k + j) :=
  Cpu.past_add h.direction (by rw [Cpu.get, h.registers]; rfl) j

theorem storesAt_add (j : Nat) (a : UInt32) :
    op.StoresAt cpu' j a ↔ op.StoresAt cpu (k + j) a := by
  rw [StoresAt, StoresAt, h.target_add]

theorem eax : cpu'.registers.eax = (cpu.setAl (op.alAfter cpu k)).registers.eax := by
  rw [h.registers]
  rfl

theorem al : cpu'.al = op.alAfter cpu k := by
  rw [Cpu.al, h.eax]
  exact Cpu.al_setAl cpu _

theorem ecx : cpu'.ecx = cpu.ecx - UInt32.ofNat k := by
  rw [Cpu.ecx, h.registers]
  rfl

theorem contents_add (j : Nat) (a : UInt32) :
    op.contents cpu' j a = op.contents cpu (k + j) a := by
  -- the last element that stores at `a` is the same one, whichever state it is counted from
  induction j generalizing a with
  | zero => exact h.read8 a
  | succ j ih =>
    have hal (hfill : op = fillByte) : cpu'.al = cpu.al := by
      rw [h.al, alAfter_of_ne (by simp [hfill])]
    rw [← Nat.add_assoc, contents, contents, h.source_add, h.target_add]
    simp only [h.storesAt_add, ih]
    by_cases hfill : op = fillByte
    · rw [if_pos hfill, if_pos hfill, hal hfill]
    · rw [if_neg hfill, if_neg hfill]

/-- Operations that store nothing read what was there from the start. -/
theorem read8_of_storeSize (hsize : op.storeSize = 0) (a : UInt32) :
    cpu'.memory.read8 a = cpu.memory.read8 a := by
  rw [h.read8, contents_of_not_storesAt fun i _ => not_storesAt_of_storeSize hsize a]

theorem alAfter_add (j : Nat) : op.alAfter cpu' j = op.alAfter cpu (k + j) := by
  cases j with
  | zero => exact h.al
  | succ j =>
    rw [← Nat.add_assoc, alAfter, alAfter, h.source_add]
    by_cases hload : op = loadByte
    · -- a load reads what was there from the start
      rw [if_pos hload, if_pos hload, h.read8_of_storeSize (by rw [hload]; rfl)]
    · rw [if_neg hload, if_neg hload, h.al, alAfter_of_ne hload]

theorem flagsAfter_add (j : Nat) : op.flagsAfter cpu' j = op.flagsAfter cpu (k + j) := by
  cases j with
  | zero => exact h.flags
  | succ j =>
    rw [← Nat.add_assoc, flagsAfter, flagsAfter, h.target_add]
    by_cases hscan : op = scanByte
    · rw [if_pos hscan, if_pos hscan, h.read8_of_storeSize (by rw [hscan]; rfl), h.al,
        alAfter_of_ne (by simp [hscan]), h.flags]
      -- the later of two comparisons decides every flag that the earlier one has set
      cases k with
      | zero => rfl
      | succ k =>
        rw [flagsAfter, if_pos hscan]
        rfl
    · rw [if_neg hscan, if_neg hscan, h.flags, flagsAfter_of_ne hscan]

theorem registersAfter_add (j : Nat) :
    op.registersAfter cpu' j = op.registersAfter cpu (k + j) := by
  have heax : (cpu'.setAl (op.alAfter cpu' j)).registers.eax =
      (cpu.setAl (op.alAfter cpu (k + j))).registers.eax := by
    rw [h.alAfter_add]
    exact Cpu.eax_setAl_setAl cpu _ h.eax
  have hecx : cpu'.ecx - UInt32.ofNat j = cpu.ecx - UInt32.ofNat (k + j) := by
    rw [h.ecx, UInt32.ofNat_add]
    grind
  have hother (register : Registers → UInt32) := congrArg register h.registers
  -- four registers go on from where they are, and the others are those from before
  refine Registers.ext_get fun r => ?_
  cases r with
  | eax => exact heax
  | ecx => exact hecx
  | esi => exact h.source_add j
  | edi => exact h.target_add j
  | edx => exact hother Registers.edx
  | ebx => exact hother Registers.ebx
  | esp => exact hother Registers.esp
  | ebp => exact hother Registers.ebp

/-- **Elements add up.** -/
theorem trans (h' : op.Reached cpu' j cpu'') : op.Reached cpu (k + j) cpu'' where
  registers := by rw [h'.registers, h.registersAfter_add]
  flags := by rw [h'.flags, h.flagsAfter_add]
  read8 a := by rw [h'.read8, h.contents_add]
  halted := by rw [h'.halted, h.halted]
  frames := by rw [h'.frames, h.frames]

end Composition

end Reached

theorem Underway.refl (cpu : Cpu) : op.Underway cpu 0 cpu :=
  { Reached.of_same rfl rfl (fun _ => rfl) rfl rfl with
    eip := rfl
    rep := rfl
    retired := by simp
    protectionAt := fun _ => rfl
    memory := fun _ => rfl }

theorem Underway.trans (h : op.Underway cpu k cpu') (h' : op.Underway cpu' j cpu'') :
    op.Underway cpu (k + j) cpu'' :=
  { h.toReached.trans h'.toReached with
    eip := h'.eip.trans h.eip
    rep := h'.rep.trans h.rep
    retired := by rw [h'.retired, h.retired, UInt64.ofNat_add, UInt64.add_assoc]
    protectionAt := fun a => (h'.protectionAt a).trans (h.protectionAt a)
    memory := fun hsize => (h'.memory hsize).trans (h.memory hsize) }

/-- The end of a repetition is no element. -/
theorem Underway.finishRepeat (h : op.Underway cpu k cpu') :
    op.Finished cpu k cpu'.finishRepeat where
  registers := h.registers
  flags := h.flags
  read8 := h.read8
  halted := h.halted
  frames := h.frames
  eip := congrArg (· + 1) h.eip
  rep := rfl
  retired := h.retired
  protectionAt := h.protectionAt
  memory := h.memory

/-! ## One element -/

theorem contents_one (a : UInt32) : op.contents cpu 1 a =
    if a - cpu.registers.edi < op.storeSize then
      if op = fillByte then cpu.al
      else cpu.memory.read8 (cpu.registers.esi + (a - cpu.registers.edi))
    else cpu.memory.read8 a := by
  simp only [contents, StoresAt, source, target, Cpu.past_zero]
  rfl

/-- The state after one element, but for the count of it. -/
theorem element?_eq_ok (h : op.element? cpu = .ok cpu') : ∃ memory : Memory,
    cpu' = { cpu with
      registers := { (cpu.setAl (op.alAfter cpu 1)).registers with
        esi := op.source cpu 1
        edi := op.target cpu 1 }
      flags := op.flagsAfter cpu 1
      memory } ∧
    (∀ a, memory.read8 a = op.contents cpu 1 a) ∧
    (∀ a, memory.protectionAt a = cpu.memory.protectionAt a) ∧
    (op.storeSize = 0 → memory = cpu.memory) := by
  have hone {a b : UInt32} : a - b < 1 ↔ a = b := by grind
  -- a store leaves AL and the flags alone, a load or a comparison the memory
  simp only [contents_one]
  cases op with
  | copyByte =>
    obtain ⟨_, hwrite, rfl⟩ := map_eq_ok_iff.mp h
    obtain ⟨-, rfl⟩ := Memory.guarded_eq_ok_iff.mp hwrite
    refine ⟨cpu.memory.store8 cpu.registers.edi (cpu.memory.read8 cpu.registers.esi), ?_,
      fun a => ?_, fun _ => rfl, fun hsize => absurd hsize (by decide)⟩
    · have hal : copyByte.alAfter cpu 1 = cpu.al := rfl
      rw [Cpu.stride_eq_set, Cpu.stride_eq_set, hal, Cpu.setAl_al]
      rfl
    · simp only [Memory.read8_store8, storeSize, hone]
      by_cases ha : a = cpu.registers.edi <;> simp [ha]
  | copyDword =>
    obtain ⟨_, hwrite, rfl⟩ := map_eq_ok_iff.mp h
    obtain ⟨-, rfl⟩ := Memory.guarded_eq_ok_iff.mp hwrite
    refine ⟨cpu.memory.store32 cpu.registers.edi (cpu.memory.read32 cpu.registers.esi), ?_,
      fun a => ?_, fun _ => rfl, fun hsize => absurd hsize (by decide)⟩
    · have hal : copyDword.alAfter cpu 1 = cpu.al := rfl
      rw [Cpu.stride_eq_set, Cpu.stride_eq_set, hal, Cpu.setAl_al]
      rfl
    · rw [Memory.read8_store32_read32]
      rfl
  | fillByte =>
    obtain ⟨_, hwrite, rfl⟩ := map_eq_ok_iff.mp h
    obtain ⟨-, rfl⟩ := Memory.guarded_eq_ok_iff.mp hwrite
    refine ⟨cpu.memory.store8 cpu.registers.edi cpu.al, ?_, fun a => ?_, fun _ => rfl,
      fun hsize => absurd hsize (by decide)⟩
    · have hal : fillByte.alAfter cpu 1 = cpu.al := rfl
      have hsource : fillByte.source cpu 1 = cpu.registers.esi := Cpu.past_size_zero cpu .esi 1
      rw [Cpu.stride_eq_set, hal, Cpu.setAl_al, hsource]
      rfl
    · simp only [Memory.read8_store8, storeSize, hone]
      simp
  | loadByte =>
    cases h
    have htarget : loadByte.target cpu 1 = cpu.registers.edi := Cpu.past_size_zero cpu .edi 1
    have hal : loadByte.alAfter cpu 1 = cpu.memory.read8 cpu.registers.esi := by
      simp [alAfter, source, Cpu.get, Registers.get]
    refine ⟨cpu.memory, ?_, fun a => ?_, fun _ => rfl, fun _ => rfl⟩
    · rw [Cpu.stride_eq_set, htarget, hal]
      rfl
    · rw [storeSize, if_neg UInt32.not_lt_zero]
  | scanByte =>
    cases h
    have hsource : scanByte.source cpu 1 = cpu.registers.esi := Cpu.past_size_zero cpu .esi 1
    have hal : scanByte.alAfter cpu 1 = cpu.al := rfl
    have hflags : scanByte.flagsAfter cpu 1 =
        cpu.flags.compare cpu.al (cpu.memory.read8 cpu.registers.edi) := by
      simp [flagsAfter, target, Cpu.get, Registers.get]
    refine ⟨cpu.memory, ?_, fun a => ?_, fun _ => rfl, fun _ => rfl⟩
    · rw [Cpu.stride_eq_set, hsource, hal, hflags, Cpu.setAl_al]
      rfl
    · rw [storeSize, if_neg UInt32.not_lt_zero]

/-- **One element**, counted and retired. -/
theorem underway_one (h : op.element? cpu = .ok cpu') :
    op.Underway cpu 1 (cpu'.set .ecx (cpu'.ecx - 1)).retire := by
  obtain ⟨memory, rfl, hread8, hprotection, hmemory⟩ := element?_eq_ok h
  exact {
    registers := rfl
    flags := rfl
    read8 := hread8
    halted := rfl
    frames := rfl
    eip := rfl
    rep := rfl
    retired := rfl
    protectionAt := hprotection
    memory := hmemory }

/-- An element that can be stored is done. -/
theorem element?_of_writable (h : cpu.memory.Writable (op.target cpu 0) op.storeSize) :
    ∃ cpu', op.element? cpu = .ok cpu' := by
  have hedi : op.target cpu 0 = cpu.registers.edi := Cpu.past_zero cpu .edi _
  rw [hedi] at h
  cases op with
  | copyByte => exact ⟨_, map_eq_ok_iff.mpr ⟨_, Memory.write8_of_writable h _, rfl⟩⟩
  | copyDword => exact ⟨_, map_eq_ok_iff.mpr ⟨_, Memory.write32_of_writable h _, rfl⟩⟩
  | fillByte => exact ⟨_, map_eq_ok_iff.mpr ⟨_, Memory.write8_of_writable h _, rfl⟩⟩
  | loadByte => exact ⟨_, rfl⟩
  | scanByte => exact ⟨_, rfl⟩

/-- Only an element that can be stored is done. -/
theorem writable_of_element? (h : op.element? cpu = .ok cpu') :
    cpu.memory.Writable (op.target cpu 0) op.storeSize := by
  have hedi : op.target cpu 0 = cpu.registers.edi := Cpu.past_zero cpu .edi _
  rw [hedi]
  cases op with
  | copyByte =>
    obtain ⟨_, hwrite, -⟩ := map_eq_ok_iff.mp h
    exact Memory.writable_of_write8 hwrite
  | copyDword =>
    obtain ⟨_, hwrite, -⟩ := map_eq_ok_iff.mp h
    exact Memory.writable_of_write32 hwrite
  | fillByte =>
    obtain ⟨_, hwrite, -⟩ := map_eq_ok_iff.mp h
    exact Memory.writable_of_write8 hwrite
  | loadByte => exact fun a ha => absurd ha UInt32.not_lt_zero
  | scanByte => exact fun a ha => absurd ha UInt32.not_lt_zero

end BlockOp

end Ia32
