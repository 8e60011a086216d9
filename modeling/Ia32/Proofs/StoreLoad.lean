import Ia32.Cpu.Lemmas
import Ia32.Proofs.Dispatch
import Ia32.Proofs.FlatMemory

/-!
# A store and the load after it

An operand in memory is spelled by a ModRM byte, a SIB byte where that asks for one, and a
displacement (`MemoryOperand`). What it stands for depends on its spelling and on the registers,
but not on where it is spelled, nor on the other register of the instruction. So an instruction
that stores a register and one that loads another register from the same operand, spelled right
after it, meet at one address.

* `MemoryOperand.effectiveAddress_eq`: **a spelled operand is decoded as it is meant**, wherever in
  memory it is spelled.
* `dispatch_store`, `dispatch_load`: what the two instructions do.
* `store_then_load`: **a store and the load after it copy one register to another**, by way of the
  four bytes of the operand.
-/

namespace Ia32

/-! ## Bytes in a row -/

/-- The memory holds the bytes from `a` on. -/
def Memory.Holds (m : Memory) (a : UInt32) (bytes : List UInt8) : Prop :=
  m.readBytes a bytes.length = bytes

namespace Memory

variable {m : Memory} {a : UInt32} {bytes : List UInt8}

theorem holds_nil : m.Holds a [] := rfl

theorem holds_cons {b : UInt8} :
    m.Holds a (b :: bytes) ↔ m.read8 a = b ∧ m.Holds (a + 1) bytes := by
  rw [Holds, List.length_cons, readBytes_succ, List.cons.injEq]
  rfl

theorem holds_append {more : List UInt8} :
    m.Holds a (bytes ++ more) ↔ m.Holds a bytes ∧ m.Holds (a + UInt32.ofNat bytes.length) more := by
  have hlength : (m.readBytes a bytes.length).length = bytes.length := length_readBytes m a _
  rw [Holds, List.length_append, readBytes_add]
  constructor
  · intro h
    exact List.append_inj h hlength
  · rintro ⟨h, hmore⟩
    exact congrArg₂ (· ++ ·) h hmore

/-- Bytes are held where they have been stored. -/
theorem holds_storeBytes (m : Memory) (a : UInt32) (hshort : bytes.length < 0x100000000) :
    (m.storeBytes a bytes).Holds a bytes := by
  refine List.ext_getElem (length_readBytes _ _ _) fun i hi hi' => ?_
  have hplace : (a + UInt32.ofNat i - a).toNat = i := by
    rw [UInt32.add_comm, UInt32.add_sub_cancel, UInt32.toNat_ofNat']
    omega
  have hbyte : (m.storeBytes a bytes).read8 (a + UInt32.ofNat i) =
      bytes[i]?.getD (m.read8 (a + UInt32.ofNat i)) := by
    rw [read8_storeBytes m a _ (Nat.le_of_lt hshort), hplace]
  simp only [readBytes, List.getElem_map, List.getElem_range]
  rw [hbyte, List.getElem?_eq_getElem hi', Option.getD_some]

/-- Bytes that a stored dword does not meet are held after it. -/
theorem Holds.store32 (h : m.Holds a bytes) {x : UInt32} (v : UInt32)
    (hapart : ∀ i < bytes.length, 4 ≤ a + UInt32.ofNat i - x) : (m.store32 x v).Holds a bytes := by
  have hsame : (m.store32 x v).readBytes a bytes.length = m.readBytes a bytes.length := by
    unfold readBytes
    refine List.map_congr_left fun i hi => ?_
    have hi' : i < bytes.length := List.mem_range.mp hi
    exact read8_store32_of_le m x v (hapart i hi')
  rw [Holds, hsame]
  exact h

theorem holds_littleEndian {v : UInt32} : m.Holds a (littleEndian v) ↔
    m.read8 a = byte0 v ∧ m.read8 (a + 1) = byte1 v ∧ m.read8 (a + 2) = byte2 v ∧
      m.read8 (a + 3) = byte3 v := by
  have h2 : a + 1 + 1 = a + 2 := by rw [UInt32.add_assoc]; rfl
  have h3 : a + 2 + 1 = a + 3 := by rw [UInt32.add_assoc]; rfl
  simp only [littleEndian_eq, holds_cons, holds_nil, h2, h3, and_true]

/-- The four bytes at an address are those of the dword there. -/
theorem holds_littleEndian_read32 (m : Memory) (a : UInt32) :
    m.Holds a (littleEndian (m.read32 a)) := by
  rw [holds_littleEndian, read32]
  simp

/-- A dword that is held as its four bytes is read back. -/
theorem Holds.read32 {v : UInt32} (h : m.Holds a (littleEndian v)) : m.read32 a = v := by
  obtain ⟨hb0, hb1, hb2, hb3⟩ := holds_littleEndian.mp h
  rw [Memory.read32, hb0, hb1, hb2, hb3, dword_bytes]

end Memory

/-! ## Spelling -/

/-- The code of a register. -/
def Register.code : Register → Fin 8
  | eax => 0
  | ecx => 1
  | edx => 2
  | ebx => 3
  | esp => 4
  | ebp => 5
  | esi => 6
  | edi => 7

@[simp] theorem Register.ofCode_code (r : Register) : ofCode r.code = r := by
  cases r <;> rfl

@[simp] theorem Register.code_ofCode (code : Fin 8) : (ofCode code).code = code := by
  revert code
  decide

namespace ModRm

/-- The byte of the three fields. -/
def toByte (m : ModRm) : UInt8 := UInt8.ofNat (m.mode.val * 64 + m.reg.val * 8 + m.rm.val)

theorem toNat_toByte (m : ModRm) :
    m.toByte.toNat = m.mode.val * 64 + m.reg.val * 8 + m.rm.val := by
  rw [toByte, UInt8.toNat_ofNat']
  omega

@[simp] theorem ofByte_toByte (m : ModRm) : ofByte m.toByte = m := by
  have hval := m.toNat_toByte
  obtain ⟨mode, reg, rm⟩ := m
  unfold ofByte low2 low3
  simp only [hval, mk.injEq, Fin.ext_iff]
  omega

@[simp] theorem toByte_ofByte (b : UInt8) : (ofByte b).toByte = b := by
  have hb := b.toNat_lt
  have hval : (ofByte b).toByte.toNat =
      b.toNat / 64 % 4 * 64 + b.toNat / 8 % 8 * 8 + b.toNat % 8 := (ofByte b).toNat_toByte
  rw [← UInt8.toNat_inj, hval]
  omega

end ModRm

namespace Displacement

/-- The bytes of a displacement of a width, lowest first. -/
def spell (v : UInt32) : Displacement → List UInt8
  | absent => []
  | byte => [v.toUInt8]
  | dword => littleEndian v

/-- What a displacement adds to an address: a byte is extended by its sign. -/
def value (v : UInt32) : Displacement → UInt32
  | absent => 0
  | byte => signExtend v.toUInt8
  | dword => v

theorem length_spell (v : UInt32) (d : Displacement) :
    UInt32.ofNat (d.spell v).length = d.size := by
  cases d <;> rfl

/-- Whatever bytes the memory holds spell some displacement. -/
theorem exists_holds_spell (m : Memory) (a : UInt32) (d : Displacement) :
    ∃ v, m.Holds a (d.spell v) := by
  cases d with
  | absent => exact ⟨0, Memory.holds_nil⟩
  | byte =>
    refine ⟨(m.read8 a).toUInt32, Memory.holds_cons.mpr ⟨?_, Memory.holds_nil⟩⟩
    exact (UInt8.toUInt8_toUInt32 _).symm
  | dword => exact ⟨m.read32 a, m.holds_littleEndian_read32 a⟩

/-- A displacement is read as it is spelled. -/
theorem read_of_holds {m : Memory} {a v : UInt32} {d : Displacement} (h : m.Holds a (d.spell v)) :
    d.read m a = d.value v := by
  cases d with
  | absent => rfl
  | byte =>
    obtain ⟨hbyte, -⟩ := Memory.holds_cons.mp h
    rw [read, hbyte, value]
  | dword => exact h.read32

end Displacement

/-- Without a SIB byte, the byte after the ModRM byte does not matter. -/
theorem AddressForm.ofModRm_of_not_hasSib {m : ModRm} (h : m.hasSib = false) (sib sib' : Sib) :
    ofModRm m sib = ofModRm m sib' := by
  simp [ofModRm, h]

/-- An operand in memory: the fields of the ModRM byte that it is spelled with, the SIB byte, and
the displacement. Of the last two it takes what the fields ask for. -/
structure MemoryOperand where
  mode : Fin 4
  rm : Fin 8
  sib : UInt8
  displacement : UInt32
  /-- The mode is not that of registers. -/
  memory : mode.val ≠ 3

namespace MemoryOperand

variable (o : MemoryOperand)

/-- The fields of the ModRM byte, for an instruction whose other operand is a register. -/
def modrm (r : Register) : ModRm := ⟨o.mode, r.code, o.rm⟩

/-- The form of address. It is the same for every register. -/
def form : AddressForm := .ofModRm (o.modrm .eax) (.ofByte o.sib)

/-- The bytes of the instruction with the opcode, the operand and a register. -/
def spell (opcode : UInt8) (r : Register) : List UInt8 :=
  opcode :: (o.modrm r).toByte ::
    ((if o.form.sib then [o.sib] else []) ++ o.form.displacement.spell o.displacement)

/-- The address in a state: base, scaled index and displacement, modulo 2^32. -/
def address (cpu : Cpu) : UInt32 :=
  (o.form.base.map cpu.get).getD 0 +
    (o.form.index.map fun (r, scale) => cpu.get r * scale).getD 0 +
    o.form.displacement.value o.displacement

variable {o}

theorem memory_modrm (o : MemoryOperand) (r : Register) : ¬ (o.modrm r).isRegister = true := by
  have hmode : (o.modrm r).mode.val ≠ 3 := o.memory
  rw [ModRm.isRegister, decide_eq_true_eq]
  exact hmode

theorem length_spell (o : MemoryOperand) (opcode : UInt8) (r : Register) :
    UInt32.ofNat (o.spell opcode r).length = o.form.length := by
  have hdisplacement := Displacement.length_spell o.displacement o.form.displacement
  rw [spell, List.length_cons, List.length_cons, List.length_append, AddressForm.length,
    AddressForm.headLength, ← hdisplacement]
  generalize (o.form.displacement.spell o.displacement).length = n
  cases o.form.sib with
  | false =>
    have hsum : (if false = true then [o.sib] else []).length + n + 1 + 1 = 2 + n := by
      simp only [Bool.false_eq_true, if_false, List.length_nil]
      omega
    rw [hsum, UInt32.ofNat_add]
    rfl
  | true =>
    have hsum : (if true = true then [o.sib] else []).length + n + 1 + 1 = 3 + n := by
      simp only [if_true, List.length_singleton]
      omega
    rw [hsum, UInt32.ofNat_add]
    rfl

/-- The address depends on the registers, and on nothing else of the state. -/
theorem address_congr {cpu cpu' : Cpu} (h : cpu'.registers = cpu.registers) :
    o.address cpu' = o.address cpu := by
  have hget : cpu'.get = cpu.get := by
    funext r
    rw [Cpu.get, Cpu.get, h]
  rw [address, address, hget]

section Decoding

variable {cpu : Cpu} {start : UInt32} {opcode : UInt8} {r : Register}
  (h : cpu.memory.Holds start (o.spell opcode r))

include h

theorem read8_opcode : cpu.memory.read8 start = opcode := (Memory.holds_cons.mp h).1

theorem read8_modrm : cpu.memory.read8 (start + 1) = (o.modrm r).toByte :=
  (Memory.holds_cons.mp (Memory.holds_cons.mp h).2).1

/-- What comes after the ModRM byte. -/
theorem holds_tail : (o.form.sib = true → cpu.memory.read8 (start + 2) = o.sib) ∧
    cpu.memory.Holds (start + o.form.headLength) (o.form.displacement.spell o.displacement) := by
  have h2 : start + 1 + 1 = start + 2 := by rw [UInt32.add_assoc]; rfl
  have h3 : start + 2 + 1 = start + 3 := by rw [UInt32.add_assoc]; rfl
  obtain ⟨-, htail⟩ := Memory.holds_cons.mp (Memory.holds_cons.mp h).2
  rw [h2] at htail
  unfold AddressForm.headLength
  -- the displacement comes one byte later behind a SIB byte
  cases hsib : o.form.sib with
  | false =>
    rw [hsib] at htail
    exact ⟨nofun, htail⟩
  | true =>
    rw [hsib] at htail
    obtain ⟨hbyte, hrest⟩ := Memory.holds_cons.mp htail
    rw [h3] at hrest
    exact ⟨fun _ => hbyte, hrest⟩

/-- **The form of a spelled operand** is found wherever it is spelled. The byte after the ModRM
byte matters only if it is a SIB byte. -/
theorem addressForm?_eq : cpu.addressForm? (o.modrm r).toByte start = .ok o.form := by
  obtain ⟨hsib, -⟩ := o.holds_tail h
  have hform : AddressForm.ofModRm (o.modrm r) (.ofByte (cpu.memory.read8 (start + 2))) =
      o.form := by
    cases hhas : (o.modrm r).hasSib with
    | true =>
      rw [hsib hhas]
      rfl
    | false => exact AddressForm.ofModRm_of_not_hasSib hhas _ _
  have hmemory : ¬ (o.modrm r).isRegister = true := o.memory_modrm r
  unfold Cpu.addressForm?
  rw [ModRm.ofByte_toByte]
  dsimp only
  rw [if_neg hmemory, hform]

/-- **The address of a spelled operand** does not depend on where it is spelled. -/
theorem address_form : o.form.address cpu start = o.address cpu := by
  obtain ⟨-, hdisplacement⟩ := o.holds_tail h
  rw [AddressForm.address, Displacement.read_of_holds hdisplacement, address]

theorem effectiveAddress_eq :
    cpu.effectiveAddress (o.modrm r).toByte start = .ok (o.address cpu) := by
  rw [Cpu.effectiveAddress, addressForm?_eq h, ← address_form h]
  rfl

end Decoding

/-- **Every operand in memory is spelled so.** If the ModRM byte does not name a register, the
memory holds an operand and a register. -/
theorem exists_holds {m : Memory} {start : UInt32}
    (hmemory : ¬ (ModRm.ofByte (m.read8 (start + 1))).isRegister = true) :
    ∃ (o : MemoryOperand) (r : Register), m.Holds start (o.spell (m.read8 start) r) := by
  have h2 : start + 1 + 1 = start + 2 := by rw [UInt32.add_assoc]; rfl
  have h3 : start + 2 + 1 = start + 3 := by rw [UInt32.add_assoc]; rfl
  generalize hmodrm : ModRm.ofByte (m.read8 (start + 1)) = modrm at hmemory
  have hmode : modrm.mode.val ≠ 3 := by
    rw [ModRm.isRegister, decide_eq_true_eq] at hmemory
    exact hmemory
  -- the displacement is found once the other fields have said where it is
  let form := MemoryOperand.form ⟨modrm.mode, modrm.rm, m.read8 (start + 2), 0, hmode⟩
  obtain ⟨v, hv⟩ := Displacement.exists_holds_spell m (start + form.headLength) form.displacement
  refine ⟨⟨modrm.mode, modrm.rm, m.read8 (start + 2), v, hmode⟩, .ofCode modrm.reg, ?_⟩
  have hbyte : m.read8 (start + 1) =
      (ModRm.mk modrm.mode (Register.ofCode modrm.reg).code modrm.rm).toByte := by
    rw [Register.code_ofCode, ← hmodrm, ModRm.toByte_ofByte]
  refine Memory.holds_cons.mpr ⟨rfl, Memory.holds_cons.mpr ⟨hbyte, ?_⟩⟩
  show m.Holds (start + 1 + 1) ((if form.sib then _ else _) ++ form.displacement.spell v)
  unfold AddressForm.headLength at hv
  rw [h2]
  cases hsib : form.sib with
  | false =>
    rw [hsib] at hv
    exact hv
  | true =>
    rw [hsib] at hv
    refine Memory.holds_cons.mpr ⟨rfl, ?_⟩
    rw [h3]
    exact hv

/-- An instruction goes on with the address and the length of its operand. -/
theorem operand_bind_run {cpu : Cpu} {opcode : UInt8} {r : Register}
    (h : cpu.memory.Holds cpu.eip (o.spell opcode r)) (f : UInt32 × UInt32 → Exec Fault Unit) :
    (Exec.operand (o.modrm r).toByte >>= f).run cpu =
      (f (o.address cpu, UInt32.ofNat (o.spell opcode r).length)).run cpu := by
  have hoperand : (Exec.operand (o.modrm r).toByte).run cpu =
      ⟨.ok (o.address cpu, o.form.length), cpu, []⟩ := by
    rw [Exec.operand, Exec.state_bind_run, addressForm?_eq h, ← address_form h]
    rfl
  rw [Exec.bind_run, hoperand, o.length_spell]
  rfl

end MemoryOperand

/-! ## Pairs of instructions -/

/-- A store of a register and a load of a register, which share the place in memory. -/
inductive StoreLoad where
  /-- 89 and 8B: any operand in memory and any two registers. -/
  | operand (o : MemoryOperand) (source destination : Register)
  /-- A3 and A1: a fixed address and EAX. -/
  | absolute (a : UInt32)

namespace StoreLoad

/-- The register that is stored. -/
def source : StoreLoad → Register
  | operand _ source _ => source
  | absolute _ => .eax

/-- The register that is loaded. -/
def destination : StoreLoad → Register
  | operand _ _ destination => destination
  | absolute _ => .eax

/-- The bytes of the store. -/
def store : StoreLoad → List UInt8
  | operand o source _ => o.spell 0x89 source
  | absolute a => 0xa3 :: littleEndian a

/-- The bytes of the load. -/
def load : StoreLoad → List UInt8
  | operand o _ destination => o.spell 0x8b destination
  | absolute a => 0xa1 :: littleEndian a

/-- The length of either instruction. -/
def length (pair : StoreLoad) : Nat := pair.store.length

/-- The address of the four bytes, in the state before the store. -/
def address (pair : StoreLoad) (cpu : Cpu) : UInt32 :=
  match pair with
  | operand o _ _ => o.address cpu
  | absolute a => a

variable {pair : StoreLoad} {cpu : Cpu}

theorem length_load (pair : StoreLoad) : pair.load.length = pair.length := by
  cases pair <;> rfl

/-- The address depends on the registers, and on nothing else of the state. -/
theorem address_congr {cpu' : Cpu} (h : cpu'.registers = cpu.registers) :
    pair.address cpu' = pair.address cpu := by
  cases pair with
  | operand o source destination => exact o.address_congr h
  | absolute a => rfl

/-- The state after the store. -/
def stored (pair : StoreLoad) (cpu : Cpu) : Cpu :=
  { cpu with
    eip := cpu.eip + UInt32.ofNat pair.length
    memory := cpu.memory.store32 (pair.address cpu) (cpu.get pair.source)
    rep := none
    retired := cpu.retired + 1 }

/-- The state after the load. -/
def loaded (pair : StoreLoad) (cpu : Cpu) : Cpu :=
  { cpu with
    registers := cpu.registers.set pair.destination (cpu.memory.read32 (pair.address cpu))
    eip := cpu.eip + UInt32.ofNat pair.length
    rep := none
    retired := cpu.retired + 1 }

/-- The load is still there after the store, unless it was stored over. -/
theorem holds_load_stored (hload : cpu.memory.Holds (cpu.eip + UInt32.ofNat pair.length) pair.load)
    (hapart : ∀ i, pair.length ≤ i → i < 2 * pair.length →
      4 ≤ cpu.eip + UInt32.ofNat i - pair.address cpu) :
    (pair.stored cpu).memory.Holds (pair.stored cpu).eip pair.load := by
  refine hload.store32 (cpu.get pair.source) fun i hi => ?_
  have hplace : cpu.eip + UInt32.ofNat pair.length + UInt32.ofNat i =
      cpu.eip + UInt32.ofNat (pair.length + i) := by
    rw [UInt32.ofNat_add, UInt32.add_assoc]
  rw [pair.length_load] at hi
  rw [hplace]
  exact hapart (pair.length + i) (by omega) (by omega)

/-- **The load finds what the store has left**, since the store moves no register that the operand
is spelled with. -/
theorem loaded_stored (pair : StoreLoad) (cpu : Cpu) : pair.loaded (pair.stored cpu) =
    { cpu with
      registers := cpu.registers.set pair.destination (cpu.get pair.source)
      memory := cpu.memory.store32 (pair.address cpu) (cpu.get pair.source)
      eip := cpu.eip + 2 * UInt32.ofNat pair.length
      rep := none
      retired := cpu.retired + 2 } := by
  have haddress : pair.address (pair.stored cpu) = pair.address cpu := address_congr rfl
  have hread : (pair.stored cpu).memory.read32 (pair.address (pair.stored cpu)) =
      cpu.get pair.source := by
    rw [haddress]
    exact Memory.read32_store32 _ _ _
  have heip : cpu.eip + UInt32.ofNat pair.length + UInt32.ofNat pair.length =
      cpu.eip + 2 * UInt32.ofNat pair.length := by grind
  have hretired : cpu.retired + 1 + 1 = cpu.retired + 2 := by
    rw [UInt64.add_assoc]
    rfl
  rw [loaded, hread, ← heip, ← hretired]
  rfl

end StoreLoad

/-! ## The two instructions -/

namespace Exec

variable (cpu : Cpu)

/-- A dword is stored, and EIP moves on. -/
theorem write32_advance_run {a : UInt32} (h : cpu.memory.Writable a 4) (v n : UInt32) :
    (write32 a v >>= fun _ => advance n).run cpu =
      ⟨.ok (), { cpu with memory := cpu.memory.store32 a v, eip := cpu.eip + n }, []⟩ := by
  have hwrite : (write32 a v).run cpu =
      ⟨.ok (), { cpu with memory := cpu.memory.store32 a v }, []⟩ := by
    rw [write32, store, attempt_run, Memory.write32_of_writable h]
  rw [bind_run, hwrite]
  rfl

/-- A register is set, and EIP moves on. -/
theorem set_advance_run (r : Register) (v n : UInt32) :
    (set r v >>= fun _ => advance n).run cpu =
      ⟨.ok (), { cpu with registers := cpu.registers.set r v, eip := cpu.eip + n }, []⟩ := rfl

end Exec

namespace InstructionSet

open Exec

variable {cpu : Cpu} {pair : StoreLoad}

/-- **The store** is carried out if its four bytes may be stored to. -/
theorem dispatch_store (hcode : cpu.memory.Holds cpu.eip pair.store)
    (hwritable : cpu.memory.Writable (pair.address cpu) 4) (linkage : Linkage) :
    (standard.dispatch linkage).run cpu = ⟨.ok (), pair.stored cpu, standard.preamble cpu⟩ := by
  have hstoreRegister : standard.handler? 0x89 = some .storeRegister := by
    rw [standard_handler?_eq]
    rfl
  have hstoreEax : standard.handler? 0xa3 = some .storeEax := by
    rw [standard_handler?_eq]
    rfl
  cases pair with
  | operand o source destination =>
    have hopcode : cpu.opcode = 0x89 := o.read8_opcode hcode
    have hmodrm : cpu.codeByte 1 = (o.modrm source).toByte := o.read8_modrm hcode
    have hmemory : ¬ (o.modrm source).isRegister = true := o.memory_modrm source
    have hsource : cpu.get (.ofCode (o.modrm source).reg) = cpu.get source :=
      congrArg cpu.get source.ofCode_code
    -- neither the code nor the address of the operand depends on the prefix, which is dropped first
    have hcode' : cpu.dropRep.memory.Holds cpu.dropRep.eip (o.spell 0x89 source) := hcode
    have hroom : cpu.dropRep.memory.Writable (o.address cpu.dropRep) 4 := hwritable
    rw [dispatch_run_dropRep linkage (by rw [hopcode, hstoreRegister]) rfl,
      Handler.storeRegister]
    dsimp only
    rw [state_bind_run, Cpu.codeByte_dropRep, hmodrm, ModRm.ofByte_toByte, if_neg hmemory,
      Cpu.get_dropRep, hsource, o.operand_bind_run hcode', write32_advance_run _ hroom,
      concluded_ok, List.append_nil]
    rfl
  | absolute a =>
    obtain ⟨hopcode, haddress⟩ := Memory.holds_cons.mp hcode
    have hdword : cpu.codeDword 1 = a := haddress.read32
    have hroom : cpu.dropRep.memory.Writable a 4 := hwritable
    rw [dispatch_run_dropRep linkage (by rw [Cpu.opcode, hopcode, hstoreEax]) rfl,
      Handler.storeEax]
    dsimp only
    rw [state_bind_run, Cpu.codeDword_dropRep, hdword, write32_advance_run _ hroom,
      concluded_ok, List.append_nil]
    rfl

/-- **The load** is carried out in any case. -/
theorem dispatch_load (hcode : cpu.memory.Holds cpu.eip pair.load) (linkage : Linkage) :
    (standard.dispatch linkage).run cpu = ⟨.ok (), pair.loaded cpu, standard.preamble cpu⟩ := by
  have hloadRegister : standard.handler? 0x8b = some .loadRegister := by
    rw [standard_handler?_eq]
    rfl
  have hloadEax : standard.handler? 0xa1 = some .loadEax := by
    rw [standard_handler?_eq]
    rfl
  cases pair with
  | operand o source destination =>
    have hopcode : cpu.opcode = 0x8b := o.read8_opcode hcode
    have hmodrm : cpu.codeByte 1 = (o.modrm destination).toByte := o.read8_modrm hcode
    have hmemory : ¬ (o.modrm destination).isRegister = true := o.memory_modrm destination
    have hdestination : Register.ofCode (o.modrm destination).reg = destination :=
      destination.ofCode_code
    have hcode' : cpu.dropRep.memory.Holds cpu.dropRep.eip (o.spell 0x8b destination) := hcode
    rw [dispatch_run_dropRep linkage (by rw [hopcode, hloadRegister]) rfl, Handler.loadRegister]
    dsimp only
    rw [state_bind_run, Cpu.codeByte_dropRep, hmodrm, ModRm.ofByte_toByte, if_neg hmemory,
      hdestination, o.operand_bind_run hcode', set_advance_run, concluded_ok, List.append_nil]
    rfl
  | absolute a =>
    obtain ⟨hopcode, haddress⟩ := Memory.holds_cons.mp hcode
    have hdword : cpu.codeDword 1 = a := haddress.read32
    rw [dispatch_run_dropRep linkage (by rw [Cpu.opcode, hopcode, hloadEax]) rfl,
      Handler.loadEax]
    dsimp only
    rw [state_bind_run, Cpu.codeDword_dropRep, hdword, set_advance_run, concluded_ok,
      List.append_nil]
    rfl

/-- **A store and the load after it copy one register to another.** At EIP there is a store of a
register to an operand in memory (89, any ModRM byte that does not name a register, any SIB byte,
any displacement; or A3 and an address), followed directly by the load of a register from the same
operand (8B, or A1). If the four bytes of the operand may be stored to and none of them is a byte
of the load, both dispatches succeed, whatever the program is linked to. Then

* the loaded register holds what the stored one held before, and every other register what it held
  itself, also if the operand is spelled with the loaded register;
* the four bytes hold this value, and every other byte of memory and all protections are the same;
* EIP is behind both instructions.

Besides, a pending prefix is gone, two more instructions have retired, and nothing else has
changed. -/
theorem store_then_load (pair : StoreLoad) (linkage : Nat → Linkage)
    (hcode : cpu.memory.Holds cpu.eip (pair.store ++ pair.load))
    (hwritable : cpu.memory.Writable (pair.address cpu) 4)
    (hapart : ∀ i, pair.length ≤ i → i < 2 * pair.length →
      4 ≤ cpu.eip + UInt32.ofNat i - pair.address cpu) :
    let value := cpu.get pair.source
    let address := pair.address cpu
    let cpu' := standard.after linkage cpu 2
    standard.Succeeds linkage cpu 2 ∧
    cpu'.get pair.destination = value ∧
    (∀ r, r ≠ pair.destination → cpu'.get r = cpu.get r) ∧
    cpu'.memory.read32 address = value ∧
    (∀ x, 4 ≤ x - address → cpu'.memory.read8 x = cpu.memory.read8 x) ∧
    (∀ x, cpu'.memory.protectionAt x = cpu.memory.protectionAt x) ∧
    cpu'.eip = cpu.eip + 2 * UInt32.ofNat pair.length ∧
    cpu' = { cpu with
      registers := cpu.registers.set pair.destination value
      memory := cpu.memory.store32 address value
      eip := cpu.eip + 2 * UInt32.ofNat pair.length
      rep := none
      retired := cpu.retired + 2 } := by
  intro value address cpu'
  obtain ⟨hstore, hload⟩ := Memory.holds_append.mp hcode
  have hstored := dispatch_store hstore hwritable (linkage 0)
  -- the store is apart from the bytes of the load, which is therefore still there
  have hloaded := dispatch_load (pair.holds_load_stored hload hapart) (linkage 1)
  have hafter : standard.after linkage cpu 1 = pair.stored cpu := by
    rw [after, after, hstored]
  -- the final state as a whole: what is said of its parts is read off it
  have hstate : cpu' = { cpu with
      registers := cpu.registers.set pair.destination value
      memory := cpu.memory.store32 address value
      eip := cpu.eip + 2 * UInt32.ofNat pair.length
      rep := none
      retired := cpu.retired + 2 } := by
    show standard.after linkage cpu (1 + 1) = _
    rw [after, hafter, hloaded]
    exact pair.loaded_stored cpu
  refine ⟨?_, ?_, ?_, ?_, ?_, ?_, ?_, hstate⟩
  · intro j hj
    obtain rfl | rfl : j = 0 ∨ j = 1 := by omega
    · rw [after, hstored]
    · rw [hafter, hloaded]
  · rw [hstate]
    exact Registers.get_set_self _ _ _
  · intro r hr
    rw [hstate]
    exact Registers.get_set_ne _ (Ne.symm hr) _
  · rw [hstate]
    exact Memory.read32_store32 _ _ _
  · intro x hx
    rw [hstate]
    exact Memory.read8_store32_of_le _ _ _ hx
  · intro x
    rw [hstate]
    exact Memory.protectionAt_store32 _ _ _ _
  · rw [hstate]

/-- ESI is stored to [ESI + 8 * EBX + 3006h] and EBX is loaded from there. -/
def scaledPair : StoreLoad := .operand ⟨2, 4, 0xde, 0x3006, by decide⟩ .esi .ebx

/-- A processor in which this address wraps twice, and its four bytes lie on two pages. -/
def wrappingPair : Cpu where
  registers := { ebx := 0x20000001, esi := 0xfffffff0 }
  eip := 0x1000
  memory := ({} : Memory).storeBytes 0x1000 (scaledPair.store ++ scaledPair.load)

theorem store_then_load_wrapping :
    scaledPair.store = [0x89, 0xb4, 0xde, 0x06, 0x30, 0, 0] ∧
    scaledPair.load = [0x8b, 0x9c, 0xde, 0x06, 0x30, 0, 0] ∧
    standard.Succeeds (fun _ => {}) wrappingPair 2 ∧
    let cpu' := standard.after (fun _ => {}) wrappingPair 2
    cpu'.registers = { ebx := 0xfffffff0, esi := 0xfffffff0 } ∧
    cpu'.memory.read32 0x2ffe = 0xfffffff0 ∧
    cpu'.eip = 0x100e := by
  have hcode : wrappingPair.memory.Holds wrappingPair.eip (scaledPair.store ++ scaledPair.load) :=
    Memory.holds_storeBytes _ _ (by decide)
  have haddress : scaledPair.address wrappingPair = 0x2ffe := by decide
  have hwritable : wrappingPair.memory.Writable (scaledPair.address wrappingPair) 4 := by
    intro x _
    simp [wrappingPair, Memory.protectionAt]
  have hapart : ∀ i, scaledPair.length ≤ i → i < 2 * scaledPair.length →
      4 ≤ wrappingPair.eip + UInt32.ofNat i - scaledPair.address wrappingPair := by
    intro i _ hi
    have hi' : i < 14 := hi
    rw [haddress]
    revert i
    decide
  obtain ⟨hsucceeds, -, -, hread, -, -, heip, hstate⟩ :=
    store_then_load scaledPair (fun _ => {}) hcode hwritable hapart
  rw [haddress] at hread
  refine ⟨by decide, by decide, hsucceeds, ?_, hread, heip⟩
  rw [hstate]
  rfl

end InstructionSet

end Ia32
