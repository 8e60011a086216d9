import Ia32.Proofs.Paging
import Ia32.Proofs.Repetition

/-!
# Repetitions across a refused store

* `refused_element`: a repetition that is refused the store of an element stands before that
  element, with the prefix still pending.
* `completes`: what is left of a repetition can be carried out in any memory with the same bytes.
* `repeat_restarts`: **a refused repetition loses and repeats nothing.** Once the pages are
  writable it goes on to the state in which it would have ended without the refusal.
-/

namespace Ia32

/-- The memory with the pages of some ranges made writable, one range after the other. -/
def Memory.unprotect (m : Memory) (ranges : List (UInt32 × UInt32)) : Memory :=
  ranges.foldl (fun m range => m.protect range.1 range.2 .readWrite) m

@[simp] theorem Memory.read8_unprotect (m : Memory) (ranges : List (UInt32 × UInt32)) (a : UInt32) :
    (m.unprotect ranges).read8 a = m.read8 a := by
  induction ranges generalizing m with
  | nil => rfl
  | cons range ranges ih => exact (ih _).trans (read8_protect _ _ _ _)

/-- Nothing is compared where something is stored. -/
theorem BlockOp.settled_of_stores {op : BlockOp} (h : op.storeSize ≠ 0) (kind : RepPrefix)
    (flags : Flags) : op.settled kind flags = false := by
  cases op with
  | scanByte => exact absurd rfl h
  | _ => rfl

namespace InstructionSet

open BlockOp

/-- In so many dispatches the processor leaves the instruction that it is on: all of them
succeed, and EIP moves with the last one. -/
structure RunsOut (linkage : Nat → Linkage) (cpu : Cpu) (dispatches : Nat) : Prop where
  succeeds : standard.Succeeds linkage cpu dispatches
  stays : ∀ j < dispatches, (standard.after linkage cpu j).eip = cpu.eip
  leaves : (standard.after linkage cpu dispatches).eip = cpu.eip + 1

variable {op : BlockOp} {kind : RepPrefix} {cpu : Cpu} {linkage : Nat → Linkage}

/-- A repetition that is refused the store of element `k` stands before that element. -/
theorem refused_element {m k : Nat} (h : Undisturbed op kind cpu m) (hk : k < m)
    (hok : standard.Succeeds linkage cpu k)
    {fault : Fault} (hfault : ((standard.dispatch (linkage k)).run
      (standard.after linkage cpu k)).result = .error fault) :
    op.Underway cpu k (standard.after linkage cpu (k + 1)) := by
  have hunderway := underway_after h hk hok
  rw [after, dispatch_underway_fault h hk hunderway hfault]
  exact hunderway

/-- What is left of a repetition is undisturbed in any memory with the same bytes. -/
theorem Undisturbed.remaining {n k : Nat} (h : Undisturbed op kind cpu n) (hk : k ≤ n)
    (hstores : op.storeSize ≠ 0) {cpu' : Cpu} (hcpu : op.Underway cpu k cpu') {memory : Memory}
    (hmemory : ∀ a, memory.read8 a = cpu'.memory.read8 a) :
    op.Reached cpu k { cpu' with memory } ∧ Undisturbed op kind { cpu' with memory } (n - k) := by
  have hcount := h.count
  have hsame : op.Reached cpu' 0 { cpu' with memory } := .of_same rfl rfl hmemory rfl rfl
  have hstart : op.Reached cpu k { cpu' with memory } := hcpu.toReached.trans hsame
  refine ⟨hstart, ?_, hcpu.rep.trans h.rep, ?_, fun i hi => ?_,
    fun i _ => settled_of_stores hstores _ _⟩
  · rw [Cpu.opcode, hmemory]
    exact h.opcode_underway hk hcpu
  · rw [hstart.ecx, toNat_sub_ofNat (by omega)]
    omega
  · rw [hstart.storesAt_add, hcpu.eip]
    exact h.code (k + i) (by omega)

/-- **What is left of a repetition can be carried out in any memory with the same bytes** that is
writable there, and ends as the whole repetition does. -/
theorem completes {n k : Nat} (h : Undisturbed op kind cpu n) (hn : n = cpu.ecx.toNat) (hk : k < n)
    (hstores : op.storeSize ≠ 0) {cpu' : Cpu} (hcpu : op.Underway cpu k cpu') (memory : Memory)
    (hmemory : ∀ a, memory.read8 a = cpu'.memory.read8 a)
    (hwritable : ∀ i, k ≤ i → i < n → memory.Writable (op.target cpu i) op.storeSize)
    (linkage : Nat → Linkage) :
    RunsOut linkage { cpu' with memory } (n - k) ∧
      op.Reached cpu n (standard.after linkage { cpu' with memory } (n - k)) ∧
      (standard.after linkage { cpu' with memory } (n - k)).eip = cpu.eip + 1 ∧
      (standard.after linkage { cpu' with memory } (n - k)).rep = none ∧
      (standard.after linkage { cpu' with memory } (n - k)).retired =
        cpu.retired + UInt64.ofNat n := by
  -- with the other memory `cpu'` has still done `k` elements of `cpu`: the rest start at `k`
  have hadd : k + (n - k) = n := by omega
  obtain ⟨hstart, hrest⟩ := h.remaining (Nat.le_of_lt hk) hstores hcpu hmemory
  have hlast : n - k = ({ cpu' with memory } : Cpu).ecx.toNat := by
    rw [hstart.ecx, toNat_sub_ofNat (by omega), ← hn]
  have hok : standard.Succeeds linkage { cpu' with memory } (n - k) := by
    refine succeeds_of_writable hrest fun i hi => ?_
    rw [hstart.target_add]
    exact hwritable (k + i) (by omega) (by omega)
  have hfinished := finished_after hrest (by omega) (.inl hlast) hok
  have hreached := hstart.trans hfinished.toReached
  rw [hadd] at hreached
  have hretired : ({ cpu' with memory } : Cpu).retired = cpu.retired + UInt64.ofNat k :=
    hcpu.retired
  refine ⟨⟨hok, fun j hj => ?_, hfinished.eip⟩, hreached, ?_, hfinished.rep, ?_⟩
  · exact (underway_after hrest hj (hok.mono (Nat.le_of_lt hj))).eip
  · rw [hfinished.eip, hcpu.eip]
  · rw [hfinished.retired, hretired, UInt64.add_assoc, ← UInt64.ofNat_add, hadd]

/-- **A repeated store that is refused can be restarted.** A prefix is pending before MOVSB, MOVSD
or STOSB, no element is stored over the operation, and the dispatch of element `k` is the first
to be refused. Then

* the first `k` elements have been done and nothing of the next one, in memory, in the registers
  and in the count of dispatches, and the prefix is still pending with EIP on the operation;
* once the pages of the remaining elements have been made writable, the remaining dispatches
  succeed, EIP leaves the operation with the last of them, and the state is the one in which the
  repetition ends when no page is protected in the first place. -/
theorem repeat_restarts (hstores : op.storeSize ≠ 0) (hopcode : cpu.opcode = op.opcode)
    (hrep : cpu.rep = some kind) (hcode : ∀ i < cpu.ecx.toNat, ¬ op.StoresAt cpu i cpu.eip)
    {k : Nat} (hk : k < cpu.ecx.toNat)
    (hnot : ∀ j < k, ∀ violation, ((standard.dispatch (linkage j)).run
      (standard.after linkage cpu j)).result ≠ .error (.accessViolation violation))
    {violation : AccessViolation} (hrefused : ((standard.dispatch (linkage k)).run
      (standard.after linkage cpu k)).result = .error (.accessViolation violation)) :
    let n := cpu.ecx.toNat
    let refused := standard.after linkage cpu (k + 1)
    ((∀ a, refused.memory.read8 a = op.contents cpu k a) ∧
      refused.registers =
        { cpu.registers with
          ecx := cpu.ecx - UInt32.ofNat k
          esi := op.source cpu k
          edi := op.target cpu k } ∧
      refused.ecx.toNat = n - k ∧ refused.flags = cpu.flags ∧ refused.eip = cpu.eip ∧
      refused.rep = cpu.rep ∧ refused.retired = cpu.retired + UInt64.ofNat k) ∧
    ∀ ranges : List (UInt32 × UInt32),
      (∀ i, k ≤ i → i < n →
        (refused.memory.unprotect ranges).Writable (op.target cpu i) op.storeSize) →
      ∀ linkage' linkage'' : Nat → Linkage,
        let opened := { refused with memory := refused.memory.unprotect ranges }
        let unprotected := { cpu with memory := { cpu.memory with protections := ∅ } }
        let restarted := standard.after linkage' opened (n - k)
        let unrefused := standard.after linkage'' unprotected n
        RunsOut linkage' opened (n - k) ∧ RunsOut linkage'' unprotected n ∧
        restarted.registers = unrefused.registers ∧ restarted.flags = unrefused.flags ∧
        restarted.eip = unrefused.eip ∧ restarted.rep = unrefused.rep ∧
        restarted.retired = unrefused.retired ∧
        (∀ a, restarted.memory.read8 a = unrefused.memory.read8 a) ∧
        restarted.halted = unrefused.halted ∧ restarted.frames = unrefused.frames := by
  intro n refused
  have hscan : op ≠ scanByte := fun h => hstores (by rw [h]; rfl)
  have hload : op ≠ loadByte := fun h => hstores (by rw [h]; rfl)
  have h : Undisturbed op kind cpu n :=
    ⟨hopcode, hrep, Nat.le_refl n, hcode, fun i _ => settled_of_stores hstores _ _⟩
  have hok := succeeds_of_not_refused h (Nat.le_of_lt hk) hnot
  have hcpu : op.Underway cpu k refused := refused_element h hk hok hrefused
  have hecx : refused.ecx.toNat = n - k := by rw [hcpu.ecx, toNat_sub_ofNat (Nat.le_of_lt hk)]
  have hregisters := hcpu.registers
  rw [registersAfter, alAfter_of_ne hload, Cpu.setAl_al] at hregisters
  have hflags := hcpu.flags
  rw [flagsAfter_of_ne hscan] at hflags
  refine ⟨⟨hcpu.read8, hregisters, hecx, hflags, hcpu.eip, hcpu.rep, hcpu.retired⟩, ?_⟩
  intro ranges hopened linkage' linkage'' opened unprotected restarted unrefused
  have hunprotected : ∀ a, ({ cpu.memory with protections := ∅ } : Memory).protectionAt a =
      .readWrite := by
    intro a
    simp [Memory.protectionAt]
  -- the restarted run does the elements from `k` on, the other one all of them
  obtain ⟨hruns, hreached, heip, hnone, hretired⟩ :=
    completes h rfl hk hstores hcpu (refused.memory.unprotect ranges) (fun a => by simp) hopened
      linkage'
  obtain ⟨hruns', hreached', heip', hnone', hretired'⟩ :=
    completes h rfl (Nat.zero_lt_of_lt hk) hstores (.refl cpu) { cpu.memory with protections := ∅ }
      (fun _ => rfl) (fun _ _ _ a _ => hunprotected a) linkage''
  exact ⟨hruns, hruns', hreached.registers.trans hreached'.registers.symm,
    hreached.flags.trans hreached'.flags.symm, heip.trans heip'.symm, hnone.trans hnone'.symm,
    hretired.trans hretired'.symm, fun a => (hreached.read8 a).trans (hreached'.read8 a).symm,
    hreached.halted.trans hreached'.halted.symm, hreached.frames.trans hreached'.frames.symm⟩

/-- A processor about to copy three dwords, the second of which goes across the start of a
protected page. -/
def straddlingCopy : Cpu where
  registers := { ecx := 3, esi := 0x2000, edi := 0x2ffa }
  eip := 0x1000
  rep := some .rep
  memory := (({} : Memory).store8 0x1000 0xa5).protectPage 0x3000 .readOnly

theorem repeat_restarts_straddling :
    let refused := standard.after (fun _ => {}) straddlingCopy 2
    let opened := { refused with memory := refused.memory.unprotect [(0x3000, 0x1000)] }
    let unprotected :=
      { straddlingCopy with memory := { straddlingCopy.memory with protections := ∅ } }
    let restarted := standard.after (fun _ => {}) opened 2
    let unrefused := standard.after (fun _ => {}) unprotected 3
    (∃ violation, ((standard.dispatch {}).run
        (standard.after (fun _ => {}) straddlingCopy 1)).result =
          .error (.accessViolation violation)) ∧
      refused.registers = { ecx := 2, esi := 0x2004, edi := 0x2ffe } ∧ refused.rep = some .rep ∧
      restarted.registers = unrefused.registers ∧ restarted.eip = unrefused.eip ∧
      restarted.retired = unrefused.retired := by
  have hprotection (a : UInt32) : straddlingCopy.memory.protectionAt a =
      if pageBase a = 0x3000 then .readOnly else .readWrite := by
    simp [straddlingCopy, Memory.protectionAt_protectPage]
  have hopcode : straddlingCopy.opcode = copyDword.opcode := by
    simp [straddlingCopy, Cpu.opcode, BlockOp.opcode]
  have hcode : ∀ i < straddlingCopy.ecx.toNat,
      ¬ copyDword.StoresAt straddlingCopy i straddlingCopy.eip := by decide
  have h : Undisturbed copyDword .rep straddlingCopy 3 :=
    ⟨hopcode, rfl, by decide, hcode, fun _ _ => rfl⟩
  have hfirst : straddlingCopy.memory.Writable (copyDword.target straddlingCopy 0) 4 := by
    intro a ha
    rw [hprotection]
    rcases Memory.sub_lt_four_iff.mp ha with rfl | rfl | rfl | rfl <;> decide
  -- the first dword ends just below the protected page, the second one goes across its start
  have hok : standard.Succeeds (fun _ => {}) straddlingCopy 1 := by
    intro j hj
    obtain rfl : j = 0 := by omega
    exact dispatch_underway_of_writable h (by decide) (.refl _) hfirst {}
  have hsecond :
      copyDword.Underway straddlingCopy 1 (standard.after (fun _ => {}) straddlingCopy 1) :=
    underway_after h (by decide) hok
  obtain ⟨violation, hrefused⟩ : ∃ violation, ((standard.dispatch {}).run
      (standard.after (fun _ => {}) straddlingCopy 1)).result =
        .error (.accessViolation violation) := by
    rcases h.dispatch_cases (by decide) hsecond {} with ⟨done, hdone, -⟩ | ⟨violation, -, hrun⟩
    · have hblocked := writable_of_element? hdone 0x3000
      rw [hsecond.target_add, hsecond.protectionAt, hprotection] at hblocked
      exact absurd (hblocked (by decide)) (by decide)
    · exact ⟨violation, by rw [hrun]⟩
  have hunchanged (a : UInt32) :=
    ((refused_element h (by decide) hok hrefused).protectionAt a).trans (hprotection a)
  have hopens (m : Memory) (a : UInt32)
      (hm : m.protectionAt a = if pageBase a = 0x3000 then .readOnly else .readWrite) :
      (m.unprotect [(0x3000, 0x1000)]).protectionAt a = .readWrite := by
    have hone : m.unprotect [(0x3000, 0x1000)] = m.protect 0x3000 0x1000 .readWrite := rfl
    rw [hone, Memory.protectionAt_protect]
    split
    · rfl
    · rename_i hout
      rw [hm, if_neg]
      exact fun hpage => hout ⟨0, by decide, by decide, pageBase_eq_iff.mp hpage⟩
  have hnot : ∀ j < 1, ∀ violation, ((standard.dispatch {}).run
      (standard.after (fun _ => {}) straddlingCopy j)).result ≠
        .error (.accessViolation violation) := by
    intro j hj violation h
    rw [hok j hj] at h
    cases h
  obtain ⟨⟨-, hrefusedAt, -, -, -, hrep, -⟩, hrestarts⟩ :=
    repeat_restarts (by decide) hopcode rfl hcode (by decide) hnot hrefused
  obtain ⟨-, -, hregisters, -, heip, -, hretired, -⟩ :=
    hrestarts [(0x3000, 0x1000)] (fun _ _ _ a _ => hopens _ a (hunchanged a)) (fun _ => {})
      fun _ => {}
  have hcount : straddlingCopy.ecx.toNat = 3 := rfl
  rw [hcount] at hregisters heip hretired
  exact ⟨⟨violation, hrefused⟩, hrefusedAt, hrep, hregisters, heip, hretired⟩

end InstructionSet

end Ia32
