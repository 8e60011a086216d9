import Ia32.Proofs.Repetition

/-!
# Repeated scans

* `Flags.Compares`: what a comparison of two bytes says about their difference;
  `compares_compare` is that the flags of the processor say so.
* `repeat_scans`: **a repeated SCASB finds the first byte that ends it**, counts down to it, and
  leaves the flags of the comparison with it.
-/

namespace Ia32

/-- The flags `f'` are those of `l - r`, on top of what `f` says about other things. -/
structure Flags.Compares (f : Flags) (l r : UInt8) (f' : Flags) : Prop where
  zero : f'.zero = true ↔ l = r
  carry : f'.carry = true ↔ l.toNat < r.toNat
  sign : f'.sign = true ↔ (l - r).toInt8.toInt < 0
  overflow : f'.overflow = true ↔
    l.toInt8.toInt - r.toInt8.toInt < -128 ∨ 127 < l.toInt8.toInt - r.toInt8.toInt
  parity : f'.parity = true ↔ 2 ∣ (List.range 8).countP (l - r).toNat.testBit
  direction : f'.direction = f.direction
  interrupt : f'.interrupt = f.interrupt

/-- The byte ends a scan for AL: the first one that differs under REP, the first one that is the
same under REPNE. -/
def RepPrefix.Stops (kind : RepPrefix) (al b : UInt8) : Prop :=
  match kind with
  | rep => b ≠ al
  | repne => b = al

instance (kind : RepPrefix) (al b : UInt8) : Decidable (kind.Stops al b) :=
  match kind with
  | .rep => inferInstanceAs (Decidable (b ≠ al))
  | .repne => inferInstanceAs (Decidable (b = al))

/-! ## Comparisons -/

/-- The highest bit of a byte, by its mask. -/
theorem and_0x80_ne_zero (b : UInt8) : b &&& 0x80 ≠ 0 ↔ b.toBitVec.msb = true := by
  have hmask : (0x80 : UInt8).toBitVec = BitVec.twoPow 8 7 := rfl
  have hmsb : b.toBitVec.msb = b.toBitVec.getLsbD 7 := rfl
  rw [Ne, ← UInt8.toBitVec_inj, UInt8.toBitVec_and, hmask, BitVec.and_twoPow, hmsb]
  cases b.toBitVec.getLsbD 7 <;> simp

/-- A difference overflows when the operands have different signs, and it has not the one of
the first. -/
theorem overflow_iff (l r : UInt8) : (l ^^^ r) &&& (l ^^^ (l - r)) &&& 0x80 ≠ 0 ↔
    l.toInt8.toInt - r.toInt8.toInt < -128 ∨ 127 < l.toInt8.toInt - r.toInt8.toInt := by
  -- everything is said by the sign bits of the operands and of their difference
  have hmsb (b : UInt8) : b.toBitVec.msb = decide (128 ≤ b.toNat) := BitVec.msb_eq_decide _
  have hl := toInt_toInt8_cases l
  have hr := toInt_toInt8_cases r
  have hl' := l.toNat_lt
  have hr' := r.toNat_lt
  rw [and_0x80_ne_zero, UInt8.toBitVec_and, UInt8.toBitVec_xor, UInt8.toBitVec_xor, BitVec.msb_and,
    BitVec.msb_xor, BitVec.msb_xor, hmsb, hmsb, hmsb, UInt8.toNat_sub]
  simp only [Bool.and_eq_true, bne_iff_ne, ne_eq, decide_eq_decide]
  omega

/-- **The flags of a comparison say what they should.** -/
theorem Flags.compares_compare (f : Flags) (l r : UInt8) : f.Compares l r (f.compare l r) where
  zero := by
    simp only [compare, decide_eq_true_eq]
    grind
  carry := by simp only [compare, decide_eq_true_eq, UInt8.lt_iff_toNat_lt]
  sign := by
    have hlt := (l - r).toNat_lt
    -- the difference is negative as a signed byte if its top bit is set
    have hsign := toInt_toInt8_cases (l - r)
    simp only [compare, decide_eq_true_eq, UInt8.le_iff_toNat_le, UInt8.reduceToNat]
    omega
  overflow := by
    simp only [compare, decide_eq_true_eq]
    exact overflow_iff l r
  parity := by
    simp only [compare, evenParity, decide_eq_true_eq]
    omega
  direction := rfl
  interrupt := rfl

/-- A repeated scan goes on or ends by the byte that it has just compared. -/
theorem BlockOp.settled_scanByte (kind : RepPrefix) (cpu : Cpu) (i : Nat) :
    scanByte.settled kind (scanByte.flagsAfter cpu (i + 1)) = true ↔
      kind.Stops cpu.al (cpu.memory.read8 (cpu.past .edi 1 i)) := by
  have hzero := (cpu.flags.compares_compare cpu.al (cpu.memory.read8 (cpu.past .edi 1 i))).zero
  have hflags : scanByte.flagsAfter cpu (i + 1) =
      cpu.flags.compare cpu.al (cpu.memory.read8 (cpu.past .edi 1 i)) := rfl
  rw [← hflags] at hzero
  cases kind with
  | rep =>
    simp only [settled, RepPrefix.Stops, decide_true, Bool.true_and, Bool.not_eq_true',
      ← Bool.not_eq_true, hzero]
    exact ne_comm
  | repne =>
    simp only [settled, RepPrefix.Stops, decide_true, Bool.true_and, hzero]
    exact eq_comm

namespace InstructionSet

open BlockOp

/-- A repeated scan of `m` bytes in so many dispatches: all succeed, EIP is on the operation
between them and past it in the end, and ECX and EDI have moved past the bytes. But for the
flags, nothing else has changed. -/
structure Scans (linkage : Nat → Linkage) (cpu : Cpu) (m dispatches : Nat) (flags : Flags) :
    Prop where
  succeeds : standard.Succeeds linkage cpu dispatches
  stays : ∀ j, 0 < j → j < dispatches → (standard.after linkage cpu j).eip = cpu.eip + 1
  count : m + (standard.after linkage cpu dispatches).ecx.toNat = cpu.ecx.toNat
  final : standard.after linkage cpu dispatches =
    { cpu with
      registers := { cpu.registers with
        ecx := cpu.ecx - UInt32.ofNat m
        edi := cpu.past .edi 1 m }
      eip := cpu.eip + 2
      flags
      rep := none
      retired := cpu.retired + UInt64.ofNat dispatches }

variable {kind : RepPrefix} {cpu : Cpu} {linkage : Nat → Linkage}

/-- Scanning changes ECX, EDI and the flags. -/
theorem Repeats.scans {m : Nat} (hm : m ≤ cpu.ecx.toNat) (h : Repeats linkage scanByte cpu m) :
    Scans linkage cpu m (1 + max m 1) (scanByte.flagsAfter cpu m) where
  succeeds := h.succeeds
  stays := h.stays
  count := by
    rw [h.reached.ecx, toNat_sub_ofNat hm]
    omega
  final := by
    have hregisters := h.reached.registers
    have hal : scanByte.alAfter cpu m = cpu.al := alAfter_of_ne (by decide) m
    have hsource : scanByte.source cpu m = cpu.registers.esi := Cpu.past_size_zero cpu .esi m
    rw [registersAfter, hal, Cpu.setAl_al, hsource] at hregisters
    exact Cpu.ext hregisters h.eip h.reached.flags (h.memory rfl) h.rep h.reached.halted h.retired
      h.reached.frames

/-- A scan goes on while no byte ends it, and ends with the count or with the first byte that
does. -/
theorem scans_of_not_stops (hkind : cpu.opcode = kind.opcode) (hop : cpu.codeByte 1 = 0xae)
    {m : Nat} (hm : m ≤ cpu.ecx.toNat)
    (hgoesOn : ∀ i, i + 1 < m → ¬ kind.Stops cpu.al (cpu.memory.read8 (cpu.past .edi 1 i)))
    (hlast : m = cpu.ecx.toNat ∨
      ∃ i, m = i + 1 ∧ kind.Stops cpu.al (cpu.memory.read8 (cpu.past .edi 1 i))) :
    Scans linkage cpu m (1 + max m 1) (scanByte.flagsAfter cpu m) := by
  refine Repeats.scans hm (repeats hkind hop hm (fun i _ => not_storesAt_of_storeSize rfl _)
    (fun i hi => ?_) (hlast.imp_right ?_) fun i _ a ha => absurd ha UInt32.not_lt_zero)
  · rw [← Bool.not_eq_true, settled_scanByte]
    exact hgoesOn i hi
  · rintro ⟨i, rfl, hstops⟩
    exact ⟨Nat.succ_pos i, (settled_scanByte kind cpu i).mpr hstops⟩

/-- **A repeat prefix before SCASB.** The bytes compared lie from EDI on, in the direction of the
flag. If one of the first ECX bytes ends the scan, the first such byte is the last one compared;
if none does, all of them are, and the flags are those of the comparison with the last one. A
scan of none compares nothing. -/
theorem repeat_scans (hkind : cpu.opcode = kind.opcode) (hop : cpu.codeByte 1 = 0xae)
    (linkage : Nat → Linkage) :
    let n := cpu.ecx.toNat
    let byte (i : Nat) := cpu.memory.read8
      (if cpu.flags.direction then cpu.registers.edi - UInt32.ofNat i
        else cpu.registers.edi + UInt32.ofNat i)
    (∀ k < n, (∀ i < k, ¬ kind.Stops cpu.al (byte i)) → kind.Stops cpu.al (byte k) →
      ∃ flags, cpu.flags.Compares cpu.al (byte k) flags ∧
        Scans linkage cpu (k + 1) (k + 2) flags) ∧
    (0 < n → (∀ i < n, ¬ kind.Stops cpu.al (byte i)) →
      ∃ flags, cpu.flags.Compares cpu.al (byte (n - 1)) flags ∧
        Scans linkage cpu n (n + 1) flags) ∧
    (n = 0 → Scans linkage cpu 0 2 cpu.flags ∧ standard.after linkage cpu 2 =
      { cpu with eip := cpu.eip + 2, rep := none, retired := cpu.retired + 2 }) := by
  intro n byte
  -- a scan of one more byte than `k` leaves the flags of the comparison with byte `k`
  have hbyte (i : Nat) : byte i = cpu.memory.read8 (cpu.past .edi 1 i) := by
    simp only [byte, Cpu.past, UInt32.mul_one]
    rfl
  have hcompares (i : Nat) :
      cpu.flags.Compares cpu.al (byte i) (scanByte.flagsAfter cpu (i + 1)) := by
    rw [hbyte]
    exact cpu.flags.compares_compare _ _
  simp only [hbyte] at hcompares ⊢
  refine ⟨fun k hk hbefore hstops => ?_, fun hn hnone => ?_, fun hn => ?_⟩
  · have hdispatches : 1 + max (k + 1) 1 = k + 2 := by omega
    refine ⟨_, hcompares k, hdispatches ▸ scans_of_not_stops hkind hop hk (fun i hi => ?_) ?_⟩
    · exact hbefore i (by omega)
    · exact .inr ⟨k, rfl, hstops⟩
  · have hdispatches : 1 + max n 1 = n + 1 := by omega
    refine ⟨_, ?_, hdispatches ▸ scans_of_not_stops hkind hop (Nat.le_refl n) ?_ (.inl rfl)⟩
    · have hlast := hcompares (n - 1)
      rwa [Nat.sub_add_cancel hn] at hlast
    · exact fun i hi => hnone i (by omega)
  · have hscans : Scans linkage cpu 0 2 cpu.flags :=
      scans_of_not_stops hkind hop (Nat.zero_le n) (by omega) (.inl hn.symm)
    refine ⟨hscans, ?_⟩
    have hecx : cpu.ecx - UInt32.ofNat 0 = cpu.ecx := UInt32.sub_zero cpu.ecx
    rw [hscans.final, Cpu.past_zero, hecx]
    rfl

/-- A processor about to look for the end of the string at 0x2000, as far as it takes. -/
def stringEnd : Cpu where
  registers := { ecx := 0xffffffff, edi := 0x2000 }
  eip := 0x1000
  memory := (({} : Memory).storeBytes 0x1000 [0xf2, 0xae]).storeBytes 0x2000 [0x68, 0x69, 0x00]

theorem repeat_scans_stringEnd :
    let final := standard.after (fun _ => {}) stringEnd 4
    final.eip = 0x1002 ∧ final.registers = { ecx := 0xfffffffc, edi := 0x2003 } ∧
      final.flags.zero = true := by
  have hkind : stringEnd.opcode = RepPrefix.repne.opcode := by
    simp [stringEnd, Cpu.opcode, Memory.storeBytes, Memory.read8_store8, RepPrefix.opcode]
  have hop : stringEnd.codeByte 1 = 0xae := by
    simp [stringEnd, Cpu.codeByte, Memory.storeBytes, Memory.read8_store8]
  have hfirst : stringEnd.memory.read8 0x2000 = 0x68 := by
    simp [stringEnd, Memory.storeBytes, Memory.read8_store8]
  have hsecond : stringEnd.memory.read8 0x2001 = 0x69 := by
    simp [stringEnd, Memory.storeBytes, Memory.read8_store8]
  have hthird : stringEnd.memory.read8 0x2002 = 0x00 := by
    simp [stringEnd, Memory.storeBytes]
  have hbefore : ∀ i < 2, ¬ RepPrefix.repne.Stops stringEnd.al
      (stringEnd.memory.read8 (0x2000 + UInt32.ofNat i)) := by
    intro i hi
    obtain rfl | rfl : i = 0 ∨ i = 1 := by omega
    · exact hfirst ▸ by decide
    · exact hsecond ▸ by decide
  obtain ⟨hfound, -, -⟩ := repeat_scans hkind hop fun _ => {}
  obtain ⟨flags, hflags, hscans⟩ := hfound 2 (by decide) hbefore hthird
  dsimp only
  rw [hscans.final]
  exact ⟨rfl, rfl, hflags.zero.mpr hthird.symm⟩

end InstructionSet

end Ia32
