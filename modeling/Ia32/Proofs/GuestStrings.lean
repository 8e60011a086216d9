import Ia32.Proofs.HostCall
import Mathlib.Data.List.TakeWhile

/-!
# Strings of the guest

A host function is given the string that a guest pointer leads to as a string of the host: every
byte before the first zero byte has become the code point of its number.

* `scanString?_eq`: **the scan in closed form.** It ends at a zero byte, at the limit, or in vain
  at the top of the address space.
* `readCString_of_stringAt`: a string that ends before the limit is read whole.
* `readCString_exact`: **the string at a pointer, exactly**, whether it ends, is cut at the limit,
  or runs off the address space.
* `utf8ByteSize_ofBytes`: bytes from 0x80 on are code points of two bytes.
* `lstrlenA_measures`: **`lstrlenA` measures a string by the bytes of the host's encoding**, in
  which the bytes from 0x80 on count twice.
-/

namespace Ia32

namespace Memory

variable {m : Memory} {a : UInt32} {n : Nat}

/-! ## The scan -/

/-- **The scan in closed form.** Of the bytes up to the limit or to the top of the address space,
it takes those before the first zero byte; if there is none, the limit must have been reached. -/
theorem scanString?_eq (m : Memory) (limit a : Nat) : m.scanString? limit a =
    let bytes := m.readBytes (UInt32.ofNat a) (min limit (UInt32.size - a))
    if 0 ∈ bytes ∨ limit ≤ UInt32.size - a then some (bytes.takeWhile (· ≠ 0)) else none := by
  induction limit generalizing a with
  | zero => simp [scanString?, readBytes]
  | succ limit ih =>
    by_cases ha : a < UInt32.size
    · -- the scan takes the byte at `a`, and goes on at the next address
      have hcount : min (limit + 1) (UInt32.size - a) =
          min limit (UInt32.size - (a + 1)) + 1 := by omega
      have hlimit : limit + 1 ≤ UInt32.size - a ↔ limit ≤ UInt32.size - (a + 1) := by omega
      have hnext : UInt32.ofNat (a + 1) = UInt32.ofNat a + 1 := UInt32.ofNat_add a 1
      rw [scanString?, if_pos ha, ih, hcount, readBytes_succ, hnext]
      dsimp only
      by_cases hzero : m.read8 (UInt32.ofNat a) = 0
      · rw [if_pos hzero, hzero, if_pos (.inl List.mem_cons_self),
          List.takeWhile_cons_of_neg (by decide)]
      · rw [if_neg hzero, List.takeWhile_cons_of_pos (by simpa using hzero)]
        simp only [List.mem_cons, Ne.symm hzero, false_or, hlimit]
        rw [apply_ite (Option.map _)]
        rfl
    · have hcount : UInt32.size - a = 0 := by omega
      simp [scanString?, ha, hcount, readBytes]

/-- The string at a pointer that is not null, by the bytes from there on. -/
theorem readCString_eq (ha : a ≠ 0) : m.readCString a =
    let bytes := m.readBytes a (min stringLimit (UInt32.size - a.toNat))
    if 0 ∈ bytes ∨ stringLimit ≤ UInt32.size - a.toNat then
      String.ofList ((bytes.takeWhile (· ≠ 0)).map Char.ofUInt8)
    else "" := by
  rw [readCString, if_neg ha, scanString?_eq, UInt32.ofNat_toNat]
  dsimp only
  split <;> rfl

/-- There is a string of `n` bytes at `a`: the first zero byte from `a` on comes after them, and
before the top of the address space. -/
structure StringAt (m : Memory) (a : UInt32) (n : Nat) : Prop where
  bounded : a.toNat + n < UInt32.size
  nonzero : ∀ b ∈ m.readBytes a n, b ≠ 0
  terminated : m.read8 (a + UInt32.ofNat n) = 0

/-- A string that ends before the limit is read whole. -/
theorem readCString_of_stringAt (h : m.StringAt a n) (ha : a ≠ 0) (hn : n < stringLimit) :
    m.readCString a = String.ofList ((m.readBytes a n).map Char.ofUInt8) := by
  have hbounded := h.bounded
  -- the zero byte is among the bytes that the scan sees, right after those of the string
  obtain ⟨rest, hrest⟩ : ∃ rest, m.readBytes a (min stringLimit (UInt32.size - a.toNat)) =
      m.readBytes a n ++ 0 :: rest := by
    obtain ⟨k, hk⟩ : ∃ k, min stringLimit (UInt32.size - a.toNat) = n + (k + 1) :=
      ⟨min stringLimit (UInt32.size - a.toNat) - (n + 1), by omega⟩
    refine ⟨(m.readBytes (a + UInt32.ofNat n + 1) k), ?_⟩
    rw [hk, readBytes_add, readBytes_succ, h.terminated]
  have hstring : ∀ b ∈ m.readBytes a n, decide (b ≠ 0) = true := fun b hb =>
    decide_eq_true (h.nonzero b hb)
  rw [readCString_eq ha, hrest]
  dsimp only
  rw [if_pos (.inl (by simp)), List.takeWhile_append_of_pos hstring,
    List.takeWhile_cons_of_neg (by decide), List.append_nil]

/-- A string that does not end is cut at the limit, or is empty if the top of the address space
comes before. -/
theorem readCString_of_nonzero (ha : a ≠ 0)
    (h : ∀ b ∈ m.readBytes a (min stringLimit (UInt32.size - a.toNat)), b ≠ 0) :
    m.readCString a = if stringLimit ≤ UInt32.size - a.toNat then
      String.ofList ((m.readBytes a stringLimit).map Char.ofUInt8) else "" := by
  have hzero : 0 ∉ m.readBytes a (min stringLimit (UInt32.size - a.toNat)) := fun hmem =>
    h 0 hmem rfl
  have hall : (m.readBytes a (min stringLimit (UInt32.size - a.toNat))).takeWhile (· ≠ 0) =
      m.readBytes a (min stringLimit (UInt32.size - a.toNat)) :=
    List.takeWhile_eq_self_iff.mpr fun b hb => decide_eq_true (h b hb)
  rw [readCString_eq ha]
  dsimp only
  rw [hall]
  simp only [hzero, false_or]
  split
  · rename_i hlimit
    rw [Nat.min_eq_left hlimit]
  · rfl

/-- Whatever is at the pointer, its string is made of bytes other than zero, and of no more of them
than the limit. -/
theorem exists_readCString (m : Memory) (a : UInt32) : ∃ bytes : List UInt8,
    bytes.length ≤ stringLimit ∧ (∀ b ∈ bytes, b ≠ 0) ∧
      m.readCString a = String.ofList (bytes.map Char.ofUInt8) := by
  by_cases ha : a = 0
  · exact ⟨[], by simp, by simp, by rw [readCString, if_pos ha, List.map_nil, String.ofList_nil]⟩
  · have hread := readCString_eq (m := m) ha
    dsimp only at hread
    split at hread
    · refine ⟨_, ?_, ?_, hread⟩
      · have hshort := (List.takeWhile_prefix (· ≠ 0)
          (l := m.readBytes a (min stringLimit (UInt32.size - a.toNat)))).length_le
        rw [length_readBytes] at hshort
        omega
      · intro b hb
        simpa using List.mem_takeWhile_imp hb
    · exact ⟨[], by simp, by simp, by rw [hread, List.map_nil, String.ofList_nil]⟩

/-- The numbers of the characters of a string of bytes are the bytes. -/
theorem toNat_ofBytes (bytes : List UInt8) :
    (String.ofList (bytes.map Char.ofUInt8)).toList.map Char.toNat = bytes.map UInt8.toNat := by
  have hcode (b : UInt8) : (Char.ofUInt8 b).toNat = b.toNat := by
    show b.toUInt32.toNat = b.toNat
    rw [UInt8.toNat_toUInt32]
  rw [String.toList_ofList, List.map_map]
  exact List.map_congr_left fun b _ => hcode b

/-- **The string at a pointer, exactly.** Of the bytes from `a` on, a scan may see the first `n`:
a thousand, or those up to the top of the address space if these are fewer.

* The string of the null pointer is empty.
* If there is a zero byte among them, the string is the bytes before the first one, each as the
  character of its number.
* If there is none, the string is all of a thousand bytes, and empty if there are fewer.
* No character of the string is NUL, and it has at most a thousand of them. -/
theorem readCString_exact (m : Memory) (a : UInt32) :
    let n := min 1000 (0x100000000 - a.toNat)
    let codes := (m.readCString a).toList.map Char.toNat
    (a = 0 → m.readCString a = "") ∧
      (a ≠ 0 → ∀ i < n, m.read8 (a + UInt32.ofNat i) = 0 →
        (∀ j < i, m.read8 (a + UInt32.ofNat j) ≠ 0) →
          codes = (m.readBytes a i).map UInt8.toNat) ∧
      (a ≠ 0 → (∀ i < n, m.read8 (a + UInt32.ofNat i) ≠ 0) →
        (n = 1000 → codes = (m.readBytes a 1000).map UInt8.toNat) ∧
        (n < 1000 → m.readCString a = "")) ∧
      0 ∉ codes ∧ (m.readCString a).length ≤ 1000 := by
  intro n codes
  have hseen : n = min stringLimit (UInt32.size - a.toNat) := rfl
  refine ⟨?_, ?_, ?_, ?_⟩
  · intro ha
    rw [readCString, if_pos ha]
  · intro ha i hi hzero hbefore
    -- a first zero byte that the scan may see ends a string below the limit
    have hstring : m.StringAt a i :=
      ⟨by simp only [n, UInt32.size] at hi ⊢; omega, forall_mem_readBytes.mpr hbefore, hzero⟩
    have hlimit : i < stringLimit := by omega
    rw [← toNat_ofBytes, ← readCString_of_stringAt hstring ha hlimit]
  · -- the limit is met, also if it is met at the very top of the address space
    intro ha hnonzero
    have hread := readCString_of_nonzero ha (forall_mem_readBytes.mpr (hseen ▸ hnonzero))
    constructor
    · intro hn
      have hlimit : stringLimit ≤ UInt32.size - a.toNat := by
        show 1000 ≤ _
        omega
      rw [if_pos hlimit] at hread
      rw [← toNat_ofBytes]
      exact congrArg (fun s : String => s.toList.map Char.toNat) hread
    · intro hn
      have hlimit : ¬ stringLimit ≤ UInt32.size - a.toNat := by
        show ¬ 1000 ≤ _
        simp only [stringLimit] at hseen
        omega
      rw [hread, if_neg hlimit]
  · obtain ⟨bytes, hshort, hnonzero, hread⟩ := exists_readCString m a
    have hcodes : codes = bytes.map UInt8.toNat := by rw [← toNat_ofBytes, ← hread]
    refine ⟨?_, ?_⟩
    · rw [hcodes, List.mem_map]
      rintro ⟨b, hb, hzero⟩
      exact hnonzero b hb (UInt8.toNat_inj.mp hzero)
    · rw [hread, String.length_ofList, List.length_map]
      exact hshort

end Memory

/-! ## The encoding of the host -/

/-- A byte from 0x80 on is a code point of two bytes. -/
theorem utf8Size_ofUInt8 (b : UInt8) : (Char.ofUInt8 b).utf8Size = if 0x80 ≤ b then 2 else 1 := by
  have hlt : b.toNat < 256 := b.toNat_lt
  have hval : (Char.ofUInt8 b).val.toNat = b.toNat := by
    show b.toUInt32.toNat = b.toNat
    rw [UInt8.toNat_toUInt32]
  unfold Char.utf8Size
  simp only [UInt32.le_iff_toNat_le, UInt8.le_iff_toNat_le, hval, UInt32.toNat_ofNatLT,
    UInt8.reduceToNat]
  grind

/-- A string of bytes takes two bytes for each of those from 0x80 on. -/
theorem utf8ByteSize_ofBytes (bytes : List UInt8) :
    (String.ofList (bytes.map Char.ofUInt8)).utf8ByteSize =
      bytes.length + bytes.countP (0x80 ≤ ·) := by
  induction bytes with
  | nil => rfl
  | cons b bytes ih =>
    rw [List.map_cons, String.ofList_cons, String.utf8ByteSize_append,
      String.utf8ByteSize_singleton, ih, utf8Size_ofUInt8, List.length_cons, List.countP_cons]
    by_cases hb : 0x80 ≤ b
    · simp [hb]
      omega
    · simp [hb]
      omega

/-! ## The function -/

namespace Win32

variable {cpu : Cpu} {p : UInt32} {n : Nat}

/-- The length that `lstrlenA` finds for a string of the bytes. -/
def measured (bytes : List UInt8) : UInt32 :=
  UInt32.ofNat (bytes.length + bytes.countP (0x80 ≤ ·))

/-- The length is the number of bytes if and only if all of them are below 0x80. -/
theorem measured_eq_iff {bytes : List UInt8} (hn : bytes.length < Memory.stringLimit) :
    measured bytes = UInt32.ofNat bytes.length ↔ ∀ b ∈ bytes, b < 0x80 := by
  have hcount : bytes.countP (0x80 ≤ ·) ≤ bytes.length := List.countP_le_length
  have hsmall : bytes.length < 1000 := hn
  have hzero : measured bytes = UInt32.ofNat bytes.length ↔ bytes.countP (0x80 ≤ ·) = 0 := by
    rw [measured, ← UInt32.toNat_inj, UInt32.toNat_ofNat', UInt32.toNat_ofNat']
    omega
  rw [hzero, List.countP_eq_zero]
  simp only [decide_eq_true_eq, UInt8.not_le]

theorem kernel32Table_lstrlenA :
    kernel32Table.function? "lstrlenA" = some (.typed [.cString] lstrlenA) := by rfl

/-- `lstrlenA` measures the string that its argument points to. -/
theorem lstrlenA_arguments (hp : p ≠ 0) (hargument : cpu.memory.read32 (cpu.esp + 4) = p)
    (hstring : cpu.memory.StringAt p n) (hn : n < Memory.stringLimit) :
    lstrlenA (cpu.arguments [.cString]) = (measured (cpu.memory.readBytes p n), []) := by
  have harguments : cpu.arguments [.cString] = [.cString (cpu.memory.readCString p)] := by
    have hraw : cpu.memory.read32 (cpu.esp + UInt32.ofNat (4 * (0 + 1))) = p := hargument
    simp only [Cpu.arguments, List.mapIdx_cons, List.mapIdx_nil, hraw]
    rw [Param.ofDword, if_neg hp]
  have hsize : UInt32.ofNat (cpu.memory.readCString p).utf8ByteSize =
      measured (cpu.memory.readBytes p n) := by
    rw [Memory.readCString_of_stringAt hstring hp hn, utf8ByteSize_ofBytes, measured]
  rw [harguments, ← hsize]
  rfl

/-- The emulator answers with the length, and leaves the state as it is. -/
theorem answer?_lstrlenA (hp : p ≠ 0) (hargument : cpu.memory.read32 (cpu.esp + 4) = p)
    (hstring : cpu.memory.StringAt p n) (hn : n < Memory.stringLimit) :
    kernel32.answer? "lstrlenA" cpu =
      some ⟨measured (cpu.memory.readBytes p n), cpu, []⟩ := by
  show kernel32Table.invoke? "lstrlenA" cpu = _
  rw [FunctionTable.invoke?, kernel32Table_lstrlenA, Option.map_some]
  dsimp only
  rw [lstrlenA_arguments hp hargument hstring hn]

/-- The table returns with the length in EAX. -/
theorem call?_lstrlenA (hp : p ≠ 0) (hargument : cpu.memory.read32 (cpu.esp + 4) = p)
    (hstring : cpu.memory.StringAt p n) (hn : n < Memory.stringLimit) :
    kernel32Table.call? "lstrlenA" cpu =
      some ⟨measured (cpu.memory.readBytes p n),
        cpu.complete .stdcall (measured (cpu.memory.readBytes p n)) 1, []⟩ := by
  rw [FunctionTable.call?, kernel32Table_lstrlenA, Option.map_some]
  dsimp only
  rw [lstrlenA_arguments hp hargument hstring hn]
  rfl

/-- **`lstrlenA` measures a string by the bytes of the host's encoding.** The function is asked
with the return address on top of the stack and, above it, a pointer to a string of `n` bytes that
ends before the limit of a scan. Then

* it answers with the number of bytes, to which those from 0x80 on are added once more; the state
  stays as it is, and nothing else happens;
* called through the table, it returns with this length in EAX;
* the length is the number of bytes if and only if all of them are below 0x80;
* a call instruction that leads here, through a program that is linked to `kernel32` first, goes
  on after the instruction with the length in EAX and its argument taken off the stack. -/
theorem lstrlenA_measures (hp : p ≠ 0) (hargument : cpu.memory.read32 (cpu.esp + 4) = p)
    (hstring : cpu.memory.StringAt p n) (hn : n < Memory.stringLimit) :
    let bytes := cpu.memory.readBytes p n
    let length := UInt32.ofNat (n + bytes.countP (0x80 ≤ ·))
    kernel32.answer? "lstrlenA" cpu = some ⟨length, cpu, []⟩ ∧
    (∃ cpu', kernel32Table.call? "lstrlenA" cpu = some ⟨length, cpu', []⟩ ∧
      cpu'.registers.eax = length) ∧
    (length = UInt32.ofNat n ↔ ∀ b ∈ bytes, b < 0x80) ∧
    ∀ (caller : Cpu) (target next : UInt32), caller.Calls target next →
      caller.memory.Writable (caller.esp - 4) 4 → caller.dropRep.called next = cpu →
      ∀ imports : Imports, imports.name? target = some "lstrlenA" → ∀ others,
        let outcome := (InstructionSet.standard.dispatch
          { imports, emulators := kernel32 :: others }).run caller
        outcome.result = .ok () ∧ outcome.cpu.eip = next ∧ outcome.cpu.registers =
          { caller.registers with eax := length, esp := caller.esp + 4 } := by
  intro bytes length
  have hbytes : bytes.length = n := Memory.length_readBytes cpu.memory p n
  have hlength : measured bytes = length := by rw [measured, hbytes]
  have hanswer : kernel32.answer? "lstrlenA" cpu = some ⟨length, cpu, []⟩ := by
    rw [answer?_lstrlenA hp hargument hstring hn, hlength]
  refine ⟨hanswer, ⟨cpu.complete .stdcall length 1, ?_, rfl⟩, ?_, ?_⟩
  · rw [call?_lstrlenA hp hargument hstring hn, hlength]
  · rw [← hlength, ← hbytes]
    exact measured_eq_iff (by rw [hbytes]; exact hn)
  · intro caller target next hcalls hstack hentered imports hsymbol others outcome
    have hcleanup : kernel32.cleanup "lstrlenA" = 4 := by rfl
    have houtcome : outcome = _ :=
      InstructionSet.dispatch_answered hcalls hstack hsymbol (hentered ▸ hanswer) others
    dsimp only at houtcome
    rw [hcleanup, Cpu.returnFromHost_called] at houtcome
    rw [houtcome]
    exact ⟨rfl, rfl, rfl⟩

/-- A state in which `lstrlenA` is asked for a string of one byte, an accented letter in the code
page of the guest. -/
def accented : Cpu where
  registers := { esp := 0x7ff8 }
  memory := (({} : Memory).store8 0x3000 0xe9).store32 0x7ffc 0x3000

theorem accented_argument : accented.memory.read32 (accented.esp + 4) = 0x3000 :=
  Memory.read32_store32 (({} : Memory).store8 0x3000 0xe9) 0x7ffc 0x3000

theorem accented_bytes : accented.memory.readBytes 0x3000 1 = [0xe9] := by
  rw [Memory.readBytes_one, accented, Memory.read8_store32_of_le _ _ _ (by decide),
    Memory.read8_store8_self]

theorem accented_stringAt : accented.memory.StringAt 0x3000 1 where
  bounded := by decide
  nonzero := by
    intro b hb
    rw [accented_bytes, List.mem_singleton] at hb
    rw [hb]
    decide
  terminated := by
    have hread : accented.memory.read8 0x3001 = 0 := by
      rw [accented, Memory.read8_store32_of_le _ _ _ (by decide), Memory.read8_store8,
        if_neg (by decide)]
      rfl
    exact hread

/-- The length is not the number of bytes: the string of one byte has the length two. -/
theorem not_forall_lstrlenA_counts :
    ¬ ∀ (cpu : Cpu) (p : UInt32) (n : Nat), p ≠ 0 → cpu.memory.read32 (cpu.esp + 4) = p →
      cpu.memory.StringAt p n → n < Memory.stringLimit →
      ∃ reply, kernel32.answer? "lstrlenA" cpu = some reply ∧ reply.result = UInt32.ofNat n := by
  intro hall
  obtain ⟨reply, hreply, hresult⟩ :=
    hall accented 0x3000 1 (by decide) accented_argument accented_stringAt (by decide)
  rw [answer?_lstrlenA (by decide) accented_argument accented_stringAt (by decide),
    accented_bytes] at hreply
  obtain rfl : _ = reply := Option.some.inj hreply
  have hlength : measured [0xe9] ≠ UInt32.ofNat 1 := by decide
  exact hlength hresult

theorem lstrlenA_measures_accented :
    accented.memory.StringAt 0x3000 1 ∧
      kernel32.answer? "lstrlenA" accented = some ⟨2, accented, []⟩ := by
  obtain ⟨hanswer, -, -, -⟩ :=
    lstrlenA_measures (by decide) accented_argument accented_stringAt (by decide)
  rw [accented_bytes] at hanswer
  exact ⟨accented_stringAt, hanswer⟩

end Win32

end Ia32
