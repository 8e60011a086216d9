import Ia32.Proofs.Atomicity
import Ia32.Proofs.Repetition

/-!
# When instructions fail

An instruction fails for one of three reasons: no handler claims its opcode, its handler does not
carry out the form of its operand (`Cpu.operandSupported`), or the bytes that it stores
(`Cpu.destination?`) meet a page that is not writable (`Memory.Refuses`).

* `denial?_addresses_eq_some_iff`: a refused store names the first byte that is refused.
* `operand_run`: an operand in memory is always decoded.
* `standardHandlers_endsIn`: every handler fails with the fault of its instruction
  (`Cpu.fault?`), or succeeds if it has none.
* `dispatch_fails_iff`: **exactly when a dispatch fails, and how.**
-/

namespace Ia32

/-! ## The first byte that is refused -/

/-- The addresses of the `n` bytes from `a` on. -/
def addresses (a : UInt32) (n : Nat) : List UInt32 :=
  (List.range n).map fun i => a + UInt32.ofNat i

theorem addresses_one (a : UInt32) : addresses a 1 = [a] := by
  simp [addresses, List.range_succ]

theorem addresses_four (a : UInt32) : addresses a 4 = [a, a + 1, a + 2, a + 3] := by
  simp [addresses, List.range_succ]

namespace Memory

variable {m : Memory} {a : UInt32} {n : Nat} {violation : AccessViolation}

/-- The violation names the first of the `n` bytes from `a` on that lies on a page that is not
writable, with the protection of that page. -/
def Refuses (m : Memory) (a : UInt32) (n : Nat) (violation : AccessViolation) : Prop :=
  ∃ i < n, violation = ⟨a + UInt32.ofNat i, m.protectionAt (a + UInt32.ofNat i)⟩ ∧
    m.protectionAt (a + UInt32.ofNat i) ≠ .readWrite ∧
    ∀ j < i, m.protectionAt (a + UInt32.ofNat j) = .readWrite

theorem denialAt?_eq_some_iff :
    m.denialAt? a = some violation ↔
      violation = ⟨a, m.protectionAt a⟩ ∧ m.protectionAt a ≠ .readWrite := by
  rw [denialAt?, Ne, ← Protection.writable_iff]
  cases (m.protectionAt a).writable <;> simp [eq_comm]

section Search

variable {place : Nat → UInt32}

theorem denial?_range_succ :
    m.denial? ((List.range (n + 1)).map place) =
      (m.denial? ((List.range n).map place)).or (m.denialAt? (place n)) := by
  simp [denial?, List.range_succ, List.findSome?_append]

theorem denial?_range_eq_none_iff :
    m.denial? ((List.range n).map place) = none ↔
      ∀ i < n, m.protectionAt (place i) = .readWrite := by
  simp [denial?_eq_none_iff]

/-- **The violation found is that of the first place refused**, in the order of the search. -/
theorem denial?_range_eq_some_iff :
    m.denial? ((List.range n).map place) = some violation ↔
      ∃ i < n, violation = ⟨place i, m.protectionAt (place i)⟩ ∧
        m.protectionAt (place i) ≠ .readWrite ∧
        ∀ j < i, m.protectionAt (place j) = .readWrite := by
  -- by the last place, which is refused only if none before it is
  induction n with
  | zero => simp [denial?]
  | succ n ih =>
    rw [denial?_range_succ, Option.or_eq_some_iff, ih, denial?_range_eq_none_iff,
      denialAt?_eq_some_iff]
    constructor
    · rintro (⟨i, hi, hrefused⟩ | ⟨hbefore, hname, hprotected⟩)
      · exact ⟨i, Nat.lt_succ_of_lt hi, hrefused⟩
      · exact ⟨n, Nat.lt_succ_self n, hname, hprotected, hbefore⟩
    · rintro ⟨i, hi, hname, hprotected, hbefore⟩
      rcases Nat.lt_succ_iff_lt_or_eq.mp hi with hlt | rfl
      · exact .inl ⟨i, hlt, hname, hprotected, hbefore⟩
      · exact .inr ⟨hbefore, hname, hprotected⟩

end Search

theorem denial?_addresses_eq_none_iff :
    m.denial? (addresses a n) = none ↔
      ∀ i < n, m.protectionAt (a + UInt32.ofNat i) = .readWrite :=
  denial?_range_eq_none_iff

/-- **A refused store names the first byte that is refused.** -/
theorem denial?_addresses_eq_some_iff :
    m.denial? (addresses a n) = some violation ↔ m.Refuses a n violation :=
  denial?_range_eq_some_iff

/-- The fault of an instruction that stores the `n` bytes from `a` on. -/
def refusal? (m : Memory) (a : UInt32) (n : Nat) : Option Fault :=
  (m.denial? (addresses a n)).map .accessViolation

theorem refusal?_eq_none_iff :
    m.refusal? a n = none ↔ ∀ i < n, m.protectionAt (a + UInt32.ofNat i) = .readWrite := by
  rw [refusal?, Option.map_eq_none_iff, denial?_addresses_eq_none_iff]

/-- The fault of a store is that it is refused. -/
theorem refusal?_eq_some_iff {fault : Fault} : m.refusal? a n = some fault ↔
    ∃ violation, m.Refuses a n violation ∧ fault = .accessViolation violation := by
  rw [refusal?, Option.map_eq_some_iff]
  simp only [denial?_addresses_eq_some_iff]
  exact exists_congr fun _ => and_congr_right fun _ => eq_comm

end Memory

/-! ## The faults of instructions -/

/-- Whether a ModRM byte names an operand that a call can take: a register, or a dword at a fixed
address. -/
def ModRm.isCallOperand (m : ModRm) : Bool :=
  m.reg.val = 2 && (m.mode.val = 3 || m.mode.val = 0 && m.rm.val = 5)

/-- The opcodes of the instructions that can fail although they have a handler. -/
def fallible (opcode : UInt8) : Bool :=
  (0x50 ≤ opcode ∧ opcode ≤ 0x57) ∨ opcode = 0x68 ∨ opcode = 0x6a ∨ opcode = 0x89 ∨
    opcode = 0xa3 ∨ opcode = 0xa4 ∨ opcode = 0xa5 ∨ opcode = 0xaa ∨ opcode = 0xc4 ∨
    opcode = 0xe8 ∨ opcode = 0xff

namespace Cpu

/-- Whether the form of the operand is carried out: of the family of FF only calls are, and far
pointers are loaded from memory only. -/
def operandSupported (cpu : Cpu) : Bool :=
  let modrm := ModRm.ofByte (cpu.codeByte 1)
  if cpu.opcode = 0xff then modrm.isCallOperand
  else if cpu.opcode = 0xc4 then modrm.mode.val ≠ 3
  else true

/-- The bytes that the instruction at EIP stores, by the address of the first one and their
number. A repetition of none stores nothing. -/
def destination? (cpu : Cpu) : Option (UInt32 × Nat) :=
  let opcode := cpu.opcode
  let push := some (cpu.esp - 4, 4)
  let element (size : Nat) :=
    if cpu.rep.isSome ∧ cpu.ecx = 0 then none else some (cpu.registers.edi, size)
  if (0x50 ≤ opcode ∧ opcode ≤ 0x57) ∨ opcode = 0x68 ∨ opcode = 0x6a ∨ opcode = 0xe8 then push
  else if opcode = 0xff then if (ModRm.ofByte (cpu.codeByte 1)).isCallOperand then push else none
  else if opcode = 0x89 then
    match cpu.effectiveAddress (cpu.codeByte 1) cpu.eip with
    | .ok address => some (address, 4)
    | .error _ => none
  else if opcode = 0xa3 then some (cpu.codeDword 1, 4)
  else if opcode = 0xa5 then element 4
  else if opcode = 0xa4 ∨ opcode = 0xaa then element 1
  else none

/-- The fault of the instruction at EIP, which has a handler. -/
def fault? (cpu : Cpu) : Option Fault :=
  if cpu.operandSupported then
    cpu.destination?.bind fun (address, size) => cpu.memory.refusal? address size
  else some (.unimplementedOperand cpu.opcode (cpu.codeByte 1) cpu.eip)

variable {cpu : Cpu}

theorem of_not_fallible (h : fallible cpu.opcode = false) :
    cpu.operandSupported = true ∧ cpu.destination? = none := by
  simp only [fallible, decide_eq_false_iff_not, not_or] at h
  obtain ⟨hpush, h68, h6a, h89, ha3, ha4, ha5, haa, hc4, he8, hff⟩ := h
  simp [operandSupported, destination?, hpush, h68, h6a, h89, ha3, ha4, ha5, haa, hc4, he8, hff]

theorem fault?_of_not_fallible (h : fallible cpu.opcode = false) : cpu.fault? = none := by
  obtain ⟨hsupported, hdestination⟩ := of_not_fallible h
  rw [fault?, if_pos hsupported, hdestination]
  rfl

/-- An instruction that is not carried out stores nothing. -/
theorem destination?_of_not_supported (h : cpu.operandSupported = false) :
    cpu.destination? = none := by
  by_cases hff : cpu.opcode = 0xff
  · have hcall : (ModRm.ofByte (cpu.codeByte 1)).isCallOperand = false := by
      simpa [operandSupported, hff] using h
    simp [destination?, hff, hcall]
  · have hc4 : cpu.opcode = 0xc4 := Decidable.byContradiction fun hc4 => by
      simp [operandSupported, hff, hc4] at h
    simp [destination?, hc4]

/-- The operand is not carried out, or nothing is stored, or it is up to the bytes stored. -/
theorem fault?_cases (cpu : Cpu) :
    (cpu.operandSupported = false ∧ cpu.destination? = none ∧
      cpu.fault? = some (.unimplementedOperand cpu.opcode (cpu.codeByte 1) cpu.eip)) ∨
    (cpu.operandSupported = true ∧ cpu.destination? = none ∧ cpu.fault? = none) ∨
    (cpu.operandSupported = true ∧ ∃ address size, cpu.destination? = some (address, size) ∧
      cpu.fault? = cpu.memory.refusal? address size) := by
  cases hsupported : cpu.operandSupported with
  | false =>
    exact .inl ⟨rfl, destination?_of_not_supported hsupported, by simp [fault?, hsupported]⟩
  | true =>
    cases hdestination : cpu.destination? with
    | none => exact .inr (.inl ⟨rfl, rfl, by simp [fault?, hsupported, hdestination]⟩)
    | some run =>
      exact .inr (.inr ⟨rfl, run.1, run.2, rfl, by simp [fault?, hsupported, hdestination]⟩)

/-- **The faults of an instruction** that has a handler. -/
theorem fault?_eq_some_iff {fault : Fault} : cpu.fault? = some fault ↔
    (cpu.operandSupported = false ∧
      fault = .unimplementedOperand cpu.opcode (cpu.codeByte 1) cpu.eip) ∨
    ∃ address size violation, cpu.destination? = some (address, size) ∧
      cpu.memory.Refuses address size violation ∧ fault = .accessViolation violation := by
  rcases cpu.fault?_cases with ⟨hunsupported, hnone, hfault⟩ | ⟨hsupported, hnone, hfault⟩ |
    ⟨hsupported, address, size, hsome, hfault⟩
  · simp [hunsupported, hnone, hfault, eq_comm]
  · simp [hsupported, hnone, hfault]
  · rw [hfault, hsome, hsupported, Memory.refusal?_eq_some_iff]
    constructor
    · rintro ⟨violation, hrefused, rfl⟩
      exact .inr ⟨address, size, violation, rfl, hrefused, rfl⟩
    · rintro (⟨h, -⟩ | ⟨_, _, violation, ⟨⟩, hrefused, rfl⟩)
      · cases h
      · exact ⟨violation, hrefused, rfl⟩

theorem fault?_eq_none_iff : cpu.fault? = none ↔ cpu.operandSupported = true ∧
    ∀ address size, cpu.destination? = some (address, size) →
      ∀ i < size, cpu.memory.protectionAt (address + UInt32.ofNat i) = .readWrite := by
  rcases cpu.fault?_cases with ⟨hunsupported, hnone, hfault⟩ | ⟨hsupported, hnone, hfault⟩ |
    ⟨hsupported, address, size, hsome, hfault⟩
  · simp [hunsupported, hfault]
  · simp [hsupported, hnone, hfault]
  · rw [hfault, hsome, Memory.refusal?_eq_none_iff]
    constructor
    · rintro hwritable
      refine ⟨hsupported, ?_⟩
      rintro _ _ ⟨⟩
      exact hwritable
    · rintro ⟨-, hwritable⟩
      exact hwritable address size rfl

end Cpu

/-! ## How computations end -/

namespace Exec

variable {cpu : Cpu} {fault? : Option Fault} {x : Exec Fault Unit}

/-- From `cpu` on, `x` fails with the fault if there is one, and succeeds otherwise. -/
def EndsIn (fault? : Option Fault) (cpu : Cpu) (x : Exec Fault Unit) : Prop :=
  (x.run cpu).result = fault?.elim (.ok ()) .error

theorem EndsIn.of_total (hx : Total x) : EndsIn none cpu x := by
  obtain ⟨_, ha⟩ := hx cpu
  exact ha

/-- What comes after a part that may fail must not fail. -/
theorem EndsIn.bind {f : Unit → Exec Fault Unit} (hx : EndsIn fault? cpu x)
    (hf : ∀ a, Total (f a)) : EndsIn fault? cpu (x >>= f) := by
  unfold EndsIn at hx ⊢
  rcases bind_cases x f cpu with ⟨e, he, hrun⟩ | ⟨a, ha, hrun⟩
  · rw [hrun, ← hx, he]
  · obtain ⟨b, hb⟩ := hf a (x.run cpu).cpu
    rw [hrun, ← hx, ha, hb]

theorem endsIn_fail (fault : Fault) : EndsIn (some fault) cpu (fail fault) := rfl

theorem endsIn_write32 (a v : UInt32) : EndsIn (cpu.memory.refusal? a 4) cpu (write32 a v) := by
  rw [EndsIn, write32, store, attempt_run, Memory.write32, Memory.guarded, Memory.refusal?,
    addresses_four]
  cases cpu.memory.denial? [a, a + 1, a + 2, a + 3] <;> rfl

theorem endsIn_push (v : UInt32) :
    EndsIn (cpu.memory.refusal? (cpu.esp - 4) 4) cpu (push v) := by
  rw [EndsIn, push, attempt_run, Cpu.push?, Memory.write32, Memory.guarded, Memory.refusal?,
    addresses_four]
  cases cpu.memory.denial? [cpu.esp - 4, cpu.esp - 4 + 1, cpu.esp - 4 + 2, cpu.esp - 4 + 3] <;> rfl

/-- A call fails if its return address cannot be pushed, and for no other reason. -/
theorem endsIn_enterCall (linkage : Linkage) (target next : UInt32) :
    EndsIn (cpu.memory.refusal? (cpu.esp - 4) 4) cpu (enterCall linkage target next) := by
  obtain ⟨rest, htotal, hrest⟩ := exists_enterCall_eq target next
  rw [hrest linkage]
  exact (endsIn_push next).bind fun _ => htotal linkage

/-- **An operand in memory is always decoded.** -/
theorem operand_run {modrm : UInt8} (hmemory : (ModRm.ofByte modrm).isRegister = false)
    (cpu : Cpu) : ∃ address, cpu.effectiveAddress modrm cpu.eip = .ok address ∧
      (operand modrm).run cpu =
        ⟨.ok (address, cpu.instructionLength modrm cpu.eip), cpu, []⟩ := by
  have hform : cpu.addressForm? modrm cpu.eip = .ok (AddressForm.ofModRm (ModRm.ofByte modrm)
      (.ofByte (cpu.memory.read8 (cpu.eip + 2)))) := by
    simp [Cpu.addressForm?, hmemory]
  refine ⟨_, by rw [Cpu.effectiveAddress, hform]; rfl, ?_⟩
  rw [operand, state_bind_run, Cpu.instructionLength, hmemory, hform]
  rfl

theorem EndsIn.state_bind {f : Cpu → Exec Fault Unit} (h : EndsIn fault? cpu (f cpu)) :
    EndsIn fault? cpu (state >>= f) := h

theorem EndsIn.operand_bind {modrm : UInt8} {operand' : UInt32 × UInt32}
    {f : UInt32 × UInt32 → Exec Fault Unit}
    (hrun : (operand modrm).run cpu = ⟨.ok operand', cpu, []⟩)
    (h : EndsIn fault? cpu (f operand')) : EndsIn fault? cpu (operand modrm >>= f) := by
  rw [EndsIn, bind_run, hrun]
  exact h

end Exec

/-! ## How handlers end -/

open Exec

namespace Cpu

variable {cpu : Cpu}

/-- The instructions that push a dword: PUSH and CALL rel32. -/
theorem fault?_of_push (h : (0x50 ≤ cpu.opcode ∧ cpu.opcode ≤ 0x57) ∨ cpu.opcode = 0x68 ∨
    cpu.opcode = 0x6a ∨ cpu.opcode = 0xe8) :
    cpu.fault? = cpu.memory.refusal? (cpu.esp - 4) 4 := by
  have hff : cpu.opcode ≠ 0xff := by grind
  have hc4 : cpu.opcode ≠ 0xc4 := by grind
  simp [fault?, operandSupported, destination?, h, hff, hc4]

end Cpu

namespace Handler

variable {cpu : Cpu} (opcode : UInt8) (linkage : Linkage)

theorem endsIn_storeRegister (hopcode : cpu.opcode = 0x89) :
    EndsIn cpu.fault? cpu (storeRegister.execute opcode linkage) := by
  refine EndsIn.state_bind ?_
  dsimp only
  split
  · rename_i hregister
    have hnone : cpu.fault? = none := by
      simp [Cpu.fault?, Cpu.operandSupported, Cpu.destination?, hopcode, Cpu.effectiveAddress,
        Cpu.addressForm?, hregister, Except.map]
    rw [hnone]
    exact .of_total ((total_update _).bind fun _ => total_update _)
  · rename_i hmemory
    obtain ⟨address, haddress, hrun⟩ := operand_run (by simpa using hmemory) cpu
    have hrefusal : cpu.fault? = cpu.memory.refusal? address 4 := by
      simp [Cpu.fault?, Cpu.operandSupported, Cpu.destination?, hopcode, haddress]
    rw [hrefusal]
    exact .operand_bind hrun ((endsIn_write32 _ _).bind fun _ => total_update _)

theorem endsIn_storeEax (hopcode : cpu.opcode = 0xa3) :
    EndsIn cpu.fault? cpu (storeEax.execute opcode linkage) := by
  have hrefusal : cpu.fault? = cpu.memory.refusal? (cpu.codeDword 1) 4 := by
    simp [Cpu.fault?, Cpu.operandSupported, Cpu.destination?, hopcode]
  rw [hrefusal]
  exact .state_bind ((endsIn_write32 _ _).bind fun _ => total_update _)

/-- A load does not fail, wherever its operand lies. -/
theorem endsIn_loadRegister : EndsIn none cpu (loadRegister.execute opcode linkage) := by
  refine EndsIn.state_bind ?_
  dsimp only
  split
  · exact .of_total ((total_update _).bind fun _ => total_update _)
  · rename_i hmemory
    obtain ⟨address, -, hrun⟩ := operand_run (by simpa using hmemory) cpu
    exact .operand_bind hrun (.of_total ((total_update _).bind fun _ => total_update _))

theorem endsIn_loadFarPointer (hopcode : cpu.opcode = 0xc4) :
    EndsIn cpu.fault? cpu (loadFarPointer.execute cpu.opcode linkage) := by
  refine EndsIn.state_bind ?_
  dsimp only
  split
  · rename_i hregister
    have hfault : cpu.fault? =
        some (.unimplementedOperand cpu.opcode (cpu.codeByte 1) cpu.eip) := by
      rw [ModRm.isRegister, decide_eq_true_eq] at hregister
      simp [Cpu.fault?, Cpu.operandSupported, hopcode, hregister]
    rw [hfault]
    exact endsIn_fail _
  · rename_i hmemory
    obtain ⟨address, -, hrun⟩ := operand_run (by simpa using hmemory) cpu
    have hnone : cpu.fault? = none := by
      rw [ModRm.isRegister, decide_eq_true_eq] at hmemory
      simp [Cpu.fault?, Cpu.operandSupported, Cpu.destination?, hopcode, hmemory]
    rw [hnone]
    exact .operand_bind hrun (.of_total ((total_update _).bind fun _ => total_update _))

theorem endsIn_callIndirect (hopcode : cpu.opcode = 0xff) :
    EndsIn cpu.fault? cpu (callIndirect.execute cpu.opcode linkage) := by
  refine EndsIn.state_bind ?_
  dsimp only
  have hcall (h : (ModRm.ofByte (cpu.codeByte 1)).isCallOperand = true) :
      cpu.fault? = cpu.memory.refusal? (cpu.esp - 4) 4 := by
    simp [Cpu.fault?, Cpu.operandSupported, Cpu.destination?, hopcode, h]
  split
  · rename_i hregister
    rw [hcall (by simp_all [ModRm.isCallOperand, ModRm.isRegister])]
    exact endsIn_enterCall _ _ _
  · split
    · rename_i hslot
      rw [hcall (by simp_all [ModRm.isCallOperand])]
      exact endsIn_enterCall _ _ _
    · rename_i hregister hslot
      have hother : (ModRm.ofByte (cpu.codeByte 1)).isCallOperand = false := by
        simp_all [ModRm.isCallOperand, ModRm.isRegister]
      have hfault : cpu.fault? =
          some (.unimplementedOperand cpu.opcode (cpu.codeByte 1) cpu.eip) := by
        simp [Cpu.fault?, Cpu.operandSupported, hopcode, hother]
      rw [hfault]
      exact endsIn_fail _

theorem endsIn_deviceTransfer : EndsIn none cpu (deviceTransfer.execute opcode linkage) := by
  refine EndsIn.state_bind ?_
  split
  · exact .of_total ((total_emit _).bind fun _ => (total_update _).bind fun _ => total_update _)
  · exact .of_total ((total_emit _).bind fun _ => total_update _)

end Handler

/-! ## Block operations -/

namespace BlockOp

variable {op : BlockOp} {cpu : Cpu}

/-- An element fails if its bytes cannot be stored. -/
theorem element?_eq_error_iff {violation : AccessViolation} :
    op.element? cpu = .error violation ↔
      cpu.memory.denial? (addresses cpu.registers.edi op.storeSize.toNat) = some violation := by
  cases op with
  | copyByte | fillByte =>
    rw [element?, map_eq_error_iff, Memory.write8, Memory.guarded_eq_error_iff]
    rw [storeSize, UInt32.toNat_one, addresses_one]
  | copyDword =>
    rw [element?, map_eq_error_iff, Memory.write32, Memory.guarded_eq_error_iff]
    rw [storeSize, UInt32.toNat_ofNat, addresses_four]
  | loadByte | scanByte => simp [element?, storeSize, addresses, Memory.denial?]

/-- A repetition of none has no fault, and any other block operation that of its first element. -/
theorem fault?_eq (hopcode : cpu.opcode = op.opcode) :
    cpu.fault? = if cpu.rep.isSome ∧ cpu.ecx = 0 then none
      else cpu.memory.refusal? cpu.registers.edi op.storeSize.toNat := by
  have hsupported : cpu.operandSupported = true := by
    cases op <;> simp [Cpu.operandSupported, hopcode, opcode]
  rw [Cpu.fault?, if_pos hsupported]
  cases op <;> by_cases hnone : cpu.rep.isSome ∧ cpu.ecx = 0 <;>
    simp [Cpu.destination?, hopcode, opcode, storeSize, hnone, Memory.refusal?, Memory.denial?,
      addresses]

end BlockOp

theorem Handler.endsIn_blockOperation {op : BlockOp} {cpu : Cpu} (hopcode : cpu.opcode = op.opcode)
    (linkage : Linkage) :
    EndsIn cpu.fault? cpu (blockOperation.execute cpu.opcode linkage) := by
  rw [EndsIn, hopcode, Handler.blockOperation_run, BlockOp.fault?_eq hopcode]
  split
  · rfl
  · cases helement : op.element? cpu with
    | error violation =>
      rw [Memory.refusal?, BlockOp.element?_eq_error_iff.mp helement]
      rfl
    | ok cpu' =>
      have hnone : cpu.memory.denial? (addresses cpu.registers.edi op.storeSize.toNat) = none := by
        refine Option.eq_none_iff_forall_ne_some.mpr fun violation hviolation => ?_
        rw [BlockOp.element?_eq_error_iff.mpr hviolation] at helement
        cases helement
      rw [Memory.refusal?, hnone]
      rfl

namespace InstructionSet

open Handler

variable {cpu : Cpu}

/-- There are few opcodes, and they can be gone through. -/
theorem forall_opcode {P : UInt8 → Prop} (h : ∀ n : Fin 256, P (UInt8.ofNat n)) (opcode : UInt8) :
    P opcode := by
  have hopcode := h ⟨opcode.toNat, opcode.toNat_lt⟩
  rwa [UInt8.ofNat_toNat] at hopcode

/-- Handlers of instructions that cannot fail. -/
theorem endsIn_of_quiet {handler : Handler} {cpu : Cpu} {x : Exec Fault Unit}
    (hquiet : ∀ n : Fin 256, handler.claims (UInt8.ofNat n) → fallible (UInt8.ofNat n) = false)
    (hclaims : handler.claims cpu.opcode = true) (hx : EndsIn none cpu x) :
    EndsIn cpu.fault? cpu x := by
  have hinfallible := forall_opcode (P := fun opcode => handler.claims opcode = true →
    fallible opcode = false) hquiet cpu.opcode hclaims
  rw [Cpu.fault?_of_not_fallible hinfallible]
  exact hx

/-- **Every handler fails with the fault of its instruction**, or succeeds if it has none. -/
theorem standardHandlers_endsIn (linkage : Linkage) :
    ∀ handler ∈ standardHandlers, ∀ cpu : Cpu, handler.claims cpu.opcode = true →
      EndsIn cpu.fault? cpu (handler.execute cpu.opcode linkage) := by
  intro handler hmem cpu hclaims
  simp only [standardHandlers, List.mem_cons, List.not_mem_nil, or_false] at hmem
  -- in the order of the opcodes, as the handlers are registered
  rcases hmem with rfl | rfl | rfl | rfl | rfl | rfl | rfl | rfl | rfl | rfl | rfl | rfl | rfl |
    rfl | rfl | rfl | rfl | rfl | rfl | rfl | rfl | rfl | rfl | rfl | rfl
  · exact endsIn_of_quiet (by decide +kernel) hclaims rfl
  · exact endsIn_of_quiet (by decide +kernel) hclaims rfl
  · exact endsIn_of_quiet (by decide +kernel) hclaims rfl
  · rw [Cpu.fault?_of_push (.inl (of_decide_eq_true hclaims))]
    exact .state_bind ((endsIn_push _).bind fun _ => total_update _)
  · exact endsIn_of_quiet (by decide +kernel) hclaims rfl
  · rw [Cpu.fault?_of_push (.inr (.inl (of_decide_eq_true hclaims)))]
    exact .state_bind ((endsIn_push _).bind fun _ => total_update _)
  · rw [Cpu.fault?_of_push (.inr (.inr (.inl (of_decide_eq_true hclaims))))]
    exact .state_bind ((endsIn_push _).bind fun _ => total_update _)
  · exact endsIn_storeRegister _ linkage (of_decide_eq_true hclaims)
  · exact endsIn_of_quiet (by decide +kernel) hclaims (endsIn_loadRegister _ linkage)
  · exact endsIn_of_quiet (by decide +kernel) hclaims rfl
  · exact endsIn_of_quiet (by decide +kernel) hclaims rfl
  · exact endsIn_of_quiet (by decide +kernel) hclaims rfl
  · exact endsIn_storeEax _ linkage (of_decide_eq_true hclaims)
  · obtain ⟨op, hop⟩ := Option.isSome_iff_exists.mp hclaims
    exact endsIn_blockOperation (BlockOp.opcode_of_ofOpcode? hop) linkage
  · exact endsIn_of_quiet (by decide +kernel) hclaims rfl
  · exact endsIn_of_quiet (by decide +kernel) hclaims rfl
  · exact endsIn_loadFarPointer linkage (of_decide_eq_true hclaims)
  · exact endsIn_of_quiet (by decide +kernel) hclaims rfl
  · exact endsIn_of_quiet (by decide +kernel) hclaims
      (endsIn_deviceTransfer _ linkage)
  · rw [Cpu.fault?_of_push (.inr (.inr (.inr (of_decide_eq_true hclaims))))]
    exact .state_bind (endsIn_enterCall linkage _ _)
  · exact endsIn_of_quiet (by decide +kernel) hclaims rfl
  · exact endsIn_of_quiet (by decide +kernel) hclaims rfl
  · exact endsIn_of_quiet (by decide +kernel) hclaims rfl
  · exact endsIn_of_quiet (by decide +kernel) hclaims rfl
  · exact endsIn_callIndirect linkage (of_decide_eq_true hclaims)

/-- The instructions that can fail for all that their handlers do have handlers. -/
theorem claimed_of_fallible {opcode : UInt8} (h : fallible opcode = true) : Claimed opcode :=
  forall_opcode (P := fun opcode => fallible opcode = true →
    ∃ handler ∈ standardHandlers, handler.claims opcode = true) (by decide +kernel) opcode h

/-- A prefix that is dropped has no say in whether the instruction fails. -/
theorem fault?_primed (cpu : Cpu) : (standard.primed cpu).fault? = cpu.fault? := by
  cases hop : BlockOp.ofOpcode? cpu.opcode with
  | some op =>
    have hhandler : standard.handler? cpu.opcode = some .blockOperation := by
      rw [BlockOp.opcode_of_ofOpcode? hop, standard_handler?_blockOp]
    rw [primed_of_usesRep hhandler rfl]
  | none =>
    -- block operations alone look at the prefix
    have hother : cpu.opcode ≠ 0xa4 ∧ cpu.opcode ≠ 0xa5 ∧ cpu.opcode ≠ 0xaa := by
      refine ⟨?_, ?_, ?_⟩ <;> intro h <;> rw [h] at hop <;> cases hop
    have hdestination (rep : Option RepPrefix) :
        ({ cpu with rep } : Cpu).destination? = cpu.destination? := by
      have hopcode : ({ cpu with rep } : Cpu).opcode = cpu.opcode := rfl
      simp only [Cpu.destination?, hopcode, hother, or_self, if_false]
      rfl
    have hfault (rep : Option RepPrefix) : ({ cpu with rep } : Cpu).fault? = cpu.fault? := by
      rw [Cpu.fault?, hdestination]
      rfl
    exact hfault _

/-- **How a dispatch ends**: with the fault of its instruction, or well. -/
theorem dispatch_result_of_claimed (linkage : Linkage) {cpu : Cpu} (h : Claimed cpu.opcode) :
    ((standard.dispatch linkage).run cpu).result = cpu.fault?.elim (.ok ()) .error := by
  obtain ⟨handler, hhandler⟩ := h.exists_handler
  have hclaims : handler.claims (standard.primed cpu).opcode = true := by
    rw [opcode_primed, claims_of_standard_handler? hhandler]
  have hends :=
    standardHandlers_endsIn linkage handler (mem_of_standard_handler? hhandler) _ hclaims
  rw [dispatch_result linkage hhandler, ← fault?_primed, ← hends, opcode_primed]

/-- **Exactly when a dispatch fails, and how.** Whatever the program is linked to, the result of
a dispatch is

* an unimplemented opcode, that at EIP, if and only if no handler claims it;
* an unimplemented operand, that at EIP, if and only if the opcode is FF and the operand none
  that a call can take, or the opcode is C4 and the operand is a register;
* a refused store if and only if the instruction stores bytes some of which lie on pages that are
  not writable; it names the first of them, and the protection of its page;
* never a decoding error;
* success in all other cases. -/
theorem dispatch_fails_iff (linkage : Linkage) (cpu : Cpu) :
    let result := ((standard.dispatch linkage).run cpu).result
    (∀ opcode address, result = .error (.unimplementedOpcode opcode address) ↔
      ¬ Claimed cpu.opcode ∧ opcode = cpu.opcode ∧ address = cpu.eip) ∧
    (∀ opcode modrm address, result = .error (.unimplementedOperand opcode modrm address) ↔
      cpu.operandSupported = false ∧
        opcode = cpu.opcode ∧ modrm = cpu.codeByte 1 ∧ address = cpu.eip) ∧
    (∀ violation, result = .error (.accessViolation violation) ↔
      ∃ address size, cpu.destination? = some (address, size) ∧
        cpu.memory.Refuses address size violation) ∧
    (∀ address cause, result ≠ .error (.decode address cause)) ∧
    (result = .ok () ↔ Claimed cpu.opcode ∧ cpu.operandSupported = true ∧
      ∀ address size, cpu.destination? = some (address, size) →
        ∀ i < size, cpu.memory.protectionAt (address + UInt32.ofNat i) = .readWrite) := by
  intro result
  by_cases hclaimed : Claimed cpu.opcode
  · have hresult : result = cpu.fault?.elim (.ok ()) .error :=
      dispatch_result_of_claimed linkage hclaimed
    -- for an instruction with a handler every part is a case of what `fault?` says
    have herror (fault : Fault) : result = .error fault ↔ cpu.fault? = some fault := by
      rw [hresult]
      cases cpu.fault? <;> simp
    have hok : result = .ok () ↔ cpu.fault? = none := by
      rw [hresult]
      cases cpu.fault? <;> simp
    refine ⟨?_, ?_, ?_, ?_, ?_⟩
    · intro opcode address
      rw [herror, Cpu.fault?_eq_some_iff]
      simp [hclaimed]
    · intro opcode modrm address
      rw [herror, Cpu.fault?_eq_some_iff]
      simp
    · intro violation
      rw [herror, Cpu.fault?_eq_some_iff]
      simp
    · intro address cause
      rw [Ne, herror, Cpu.fault?_eq_some_iff]
      simp
    · rw [hok, Cpu.fault?_eq_none_iff]
      exact (and_iff_right hclaimed).symm
  · have hresult : result = .error (.unimplementedOpcode cpu.opcode cpu.eip) := by
      rw [← standard_handler?_eq_none_iff] at hclaimed
      exact congrArg Outcome.result (dispatch_run_of_none linkage hclaimed)
    -- without a handler there is neither an operand nor a destination to speak of
    have hinfallible : fallible cpu.opcode = false :=
      Bool.eq_false_iff.mpr fun hfallible => hclaimed (claimed_of_fallible hfallible)
    obtain ⟨hsupported, hnone⟩ := Cpu.of_not_fallible hinfallible
    simp [hresult, hsupported, hnone, hclaimed, eq_comm]

/-- A processor about to store EAX over the boundary of two pages, of which the second one is
read-only. -/
def straddlingStore : Cpu where
  registers := { eax := 0xcccccccc }
  eip := 0x1000
  memory := (({} : Memory).storeBytes 0x1000 [0xa3, 0xfe, 0x1f, 0x00, 0x00]).protectPage 0x2000
    .readOnly

theorem dispatch_fails_iff_straddling :
    ((standard.dispatch {}).run straddlingStore).result =
      .error (.accessViolation ⟨0x2000, .readOnly⟩) := by
  obtain ⟨-, -, hrefused, -, -⟩ := dispatch_fails_iff {} straddlingStore
  have hopcode : straddlingStore.opcode = 0xa3 := by
    simp [straddlingStore, Cpu.opcode, Memory.storeBytes, Memory.read8_store8]
  have htarget : straddlingStore.codeDword 1 = 0x1ffe := by
    simp [straddlingStore, Cpu.codeDword, Memory.read32, Memory.storeBytes, Memory.read8_store8]
    decide
  have hdestination : straddlingStore.destination? = some (0x1ffe, 4) := by
    simp [Cpu.destination?, hopcode, htarget]
  have hprotection (a : UInt32) : straddlingStore.memory.protectionAt a =
      if pageBase a = 0x2000 then .readOnly else .readWrite := by
    rw [straddlingStore, Memory.protectionAt_protectPage, Memory.protectionAt,
      Memory.protections_storeBytes]
    exact congrArg _ (Memory.protectionAt_empty a)
  refine (hrefused _).mpr ⟨0x1ffe, 4, hdestination, 2, by decide, ?_, ?_, ?_⟩
  · rw [hprotection]
    decide
  · rw [hprotection]
    decide
  · intro j hj
    rw [hprotection]
    revert j
    decide

end InstructionSet

end Ia32
