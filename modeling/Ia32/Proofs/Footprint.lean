import Ia32.Proofs.Accounting
import Ia32.Proofs.Activation
import Ia32.Proofs.FlatMemory
import Ia32.Proofs.PendingPrefix

/-!
# The footprint of one instruction

What an instruction leaves alone, whatever its operands are and whatever is pending, in a program
that is linked to registries of typed functions, `kernel32` and `user32` (`Registry.Plain`).

* `Memory.StoresOnce`: at most one run of at most four bytes has been stored, on writable pages.
* `plainHandlers_storesOnce`: every handler stores at most once; that of a call stores its return
  address (`callEnds_of_enterCall`).
* `dispatch_footprint`: **one instruction changes little**: bytes in one place, the flags of a
  comparison on a comparison, the direction on CLD and STD, the halted flag on HLT and a call of
  `ExitProcess`, and one frame on calls and returns.
-/

namespace Ia32

open Exec

/-! ## One store -/

namespace Memory

/-- Between the memories, one run of at most four bytes has been stored, all of them on writable
pages, or none at all. -/
def StoresOnce (m m' : Memory) : Prop :=
  ∃ a bytes, bytes.length ≤ 4 ∧
    (∀ i < bytes.length, m.protectionAt (a + UInt32.ofNat i) = .readWrite) ∧
    m' = m.storeBytes a bytes

variable {m m' : Memory} {a : UInt32}

theorem StoresOnce.refl (m : Memory) : m.StoresOnce m :=
  ⟨0, [], by simp, by simp, rfl⟩

theorem storesOnce_write8 {b : UInt8} (h : m.write8 a b = .ok m') : m.StoresOnce m' := by
  obtain ⟨hdenial, rfl⟩ := guarded_eq_ok_iff.mp h
  have hwritable := m.denial?_eq_none_iff.mp hdenial
  refine ⟨a, [b], by simp, ?_, rfl⟩
  intro i hi
  obtain rfl : i = 0 := by simpa using hi
  apply hwritable
  simp

theorem storesOnce_store32 (v : UInt32) (h : m.Writable a 4) : m.StoresOnce (m.store32 a v) := by
  refine ⟨a, [byte0 v, byte1 v, byte2 v, byte3 v], by simp, ?_, m.store32_eq_storeBytes a v⟩
  have hbytes : ∀ x ∈ [a, a + 1, a + 2, a + 3], m.protectionAt x = .readWrite := by
    intro x hx
    exact h x (sub_lt_four_iff.mpr (by simpa using hx))
  exact forall_dword_iff.mp hbytes

theorem storesOnce_write32 {v : UInt32} (h : m.write32 a v = .ok m') : m.StoresOnce m' := by
  have hwritable : m.Writable a 4 := writable_of_write32 h
  obtain ⟨-, rfl⟩ := guarded_eq_ok_iff.mp h
  exact storesOnce_store32 v hwritable

/-- The bytes of `m'` are those of `m`, but for the `n` bytes from `a` on, which lie on writable
pages. The pages of these are resident in `m'`, and no others that are not so in `m`. -/
structure ChangesWithin (m : Memory) (a : UInt32) (n : Nat) (m' : Memory) : Prop where
  writable : ∀ i < n, m.protectionAt (a + UInt32.ofNat i) = .readWrite
  read8 : ∀ x, (∀ i < n, x ≠ a + UInt32.ofNat i) → m'.read8 x = m.read8 x
  protectionAt : ∀ x, m'.protectionAt x = m.protectionAt x
  mem_pages : ∀ page, page ∈ m'.pages ↔ page ∈ m.pages ∨ page ∈ pagesOfRun a n
  residentPages : m'.residentPages = m.residentPages + ((pagesOfRun a n).filter (· ∉ m.pages)).card

/-- One store brings at most two pages into being. -/
theorem StoresOnce.residentPages_le (h : m.StoresOnce m') :
    m'.residentPages ≤ m.residentPages + 2 := by
  obtain ⟨a, bytes, hshort, -, rfl⟩ := h
  have hnew := Finset.card_filter_le (pagesOfRun a bytes.length) (· ∉ m.pages)
  have htwo := card_pagesOfRun_le_two a (n := bytes.length) (by omega)
  rw [residentPages_storeBytes]
  omega

/-- What one store shows of itself. -/
theorem StoresOnce.exists_changesWithin (h : m.StoresOnce m') :
    ∃ a n, n ≤ 4 ∧ m.ChangesWithin a n m' := by
  obtain ⟨a, bytes, hshort, hwritable, rfl⟩ := h
  refine ⟨a, bytes.length, hshort, hwritable, ?_, ?_, fun _ => mem_pages_storeBytes,
    residentPages_storeBytes⟩
  · intro x hx
    -- the run is too short to come around to an address that is not in it
    have hlong : bytes.length ≤ (x - a).toNat := by
      by_contra hlt
      apply hx (x - a).toNat (by omega)
      rw [UInt32.ofNat_toNat]
      grind
    rw [read8_storeBytes _ _ _ (by omega), List.getElem?_eq_none hlong]
    rfl
  · intro x
    unfold Memory.protectionAt
    rw [protections_storeBytes]

end Memory

/-- At most one store has taken place between the states. -/
def Cpu.StoresOnce (cpu cpu' : Cpu) : Prop := cpu.memory.StoresOnce cpu'.memory

/-! ## Handlers that store -/

namespace Exec

variable {α β : Type} {x : Exec Fault α} {f : α → Exec Fault β}

theorem Within.keeps_bind (hx : Within (Cpu.Keeps Cpu.memory) x)
    (hf : ∀ a, Within Cpu.StoresOnce (f a)) : Within Cpu.StoresOnce (x >>= f) := by
  refine hx.comp hf ?_ ?_
  · intro cpu cpu' hkept
    unfold Cpu.StoresOnce
    rw [show cpu'.memory = cpu.memory from hkept]
    exact .refl _
  · intro cpu cpu' cpu'' hkept hstored
    unfold Cpu.StoresOnce at hstored ⊢
    rwa [show cpu'.memory = cpu.memory from hkept] at hstored

theorem Within.bind_keeps (hx : Within Cpu.StoresOnce x)
    (hf : ∀ a, Within (Cpu.Keeps Cpu.memory) (f a)) : Within Cpu.StoresOnce (x >>= f) := by
  refine hx.comp hf (fun _ _ h => h) ?_
  intro cpu cpu' cpu'' hstored hkept
  unfold Cpu.StoresOnce
  rwa [show cpu''.memory = cpu'.memory from hkept]

theorem Within.storesOnce (hx : Within (Cpu.Keeps Cpu.memory) x) : Within Cpu.StoresOnce x := by
  intro cpu
  unfold Cpu.StoresOnce
  rw [show (x.run cpu).cpu.memory = cpu.memory from hx cpu]
  exact .refl _

end Exec

theorem permitsSets_memory : PermitsSets (Cpu.Keeps Cpu.memory) :=
  permitsSets_keeps fun _ _ _ => rfl

theorem storesOnce_push (v : UInt32) : Exec.Within Cpu.StoresOnce (push v) := by
  intro cpu
  rw [push, attempt_run]
  cases hpush : cpu.push? v with
  | error violation => exact .refl _
  | ok cpu' =>
    obtain ⟨hstack, rfl⟩ := Cpu.push?_eq_ok_iff.mp hpush
    exact Memory.storesOnce_store32 v hstack

theorem storesOnce_write32 (a v : UInt32) : Exec.Within Cpu.StoresOnce (Exec.write32 a v) := by
  intro cpu
  rw [Exec.write32, store, attempt_run]
  cases hwrite : cpu.memory.write32 a v with
  | error violation => exact .refl _
  | ok memory => exact Memory.storesOnce_write32 hwrite

/-- An element is stored before the pointers move. -/
theorem storesOnce_element {op : BlockOp} {cpu cpu' : Cpu} (h : op.element? cpu = .ok cpu') :
    cpu.StoresOnce cpu' := by
  cases op with
  | copyByte =>
    obtain ⟨memory, hwrite, rfl⟩ := map_eq_ok_iff.mp h
    exact Memory.storesOnce_write8 hwrite
  | copyDword =>
    obtain ⟨memory, hwrite, rfl⟩ := map_eq_ok_iff.mp h
    exact Memory.storesOnce_write32 hwrite
  | fillByte =>
    obtain ⟨memory, hwrite, rfl⟩ := map_eq_ok_iff.mp h
    exact Memory.storesOnce_write8 hwrite
  | loadByte =>
    cases h
    exact .refl _
  | scanByte =>
    cases h
    exact .refl _

theorem storesOnce_storeRegister (opcode : UInt8) (linkage : Linkage) :
    Exec.Within Cpu.StoresOnce (Handler.storeRegister.execute opcode linkage) := by
  refine reads_state.within.keeps_bind fun cpu => ?_
  dsimp only
  split
  · exact (permitsSets_memory.within_set_advance _ _ _).storesOnce
  · refine (reads_operand _).within.keeps_bind fun operand => ?_
    exact (storesOnce_write32 _ _).bind_keeps fun _ => permitsSets_memory.within_advance _

theorem storesOnce_blockOperation (opcode : UInt8) (linkage : Linkage) :
    Exec.Within Cpu.StoresOnce (Handler.blockOperation.execute opcode linkage) := by
  refine reads_state.within.keeps_bind fun cpu => ?_
  split
  · have hfinish : Exec.Within (Cpu.Keeps Cpu.memory) (update Cpu.finishRepeat : Exec Fault Unit) :=
      permitsSets_memory.finishRepeat fun _ _ => rfl
    exact hfinish.storesOnce
  · cases BlockOp.ofOpcode? opcode with
    | none => exact (reads_fail _).within.storesOnce
    | some op =>
      have helement : Exec.Within Cpu.StoresOnce
          (attempt fun cpu => (op.element? cpu).mapError Fault.accessViolation) := by
        intro cpu
        rw [attempt_run]
        cases hdone : (op.element? cpu).mapError Fault.accessViolation with
        | error fault => exact .refl _
        | ok cpu' => exact storesOnce_element (mapError_eq_ok_iff.mp hdone)
      -- what comes after the element counts it, and stores nothing
      refine helement.bind_keeps fun _ => ?_
      exact permitsSets_memory.countDown (fun _ _ => rfl) op

namespace InstructionSet

/-- **A handler that neither calls nor returns stores at most once.** -/
theorem plainHandlers_storesOnce (linkage : Linkage) : ∀ handler ∈ plainHandlers, ∀ opcode,
    Exec.Within Cpu.StoresOnce (handler.execute opcode linkage) := by
  intro handler hmem opcode
  have hpush (f : Cpu → UInt32) (n : UInt32) :
      Exec.Within Cpu.StoresOnce (do push (f (← state)); advance n) :=
    reads_state.within.keeps_bind fun cpu =>
      (storesOnce_push _).bind_keeps fun _ => permitsSets_memory.within_advance n
  have hsets := permitsSets_memory
  -- most handlers store nothing; those of pushes, MOV and block operations store before they move on
  rcases move_or_of_mem_plainHandlers hmem with hmove | rfl | rfl | rfl | rfl
  · rcases set_or_of_mem_moveHandlers hmove with hset | rfl | rfl | rfl | rfl | rfl
    · exact (setHandlers_within hsets linkage handler hset opcode).storesOnce
    · exact hpush _ _
    · exact hpush _ _
    · exact hpush _ _
    · exact storesOnce_storeRegister opcode linkage
    · refine reads_state.within.keeps_bind fun cpu => ?_
      exact (storesOnce_write32 _ _).bind_keeps fun _ => hsets.within_advance 5
  · exact storesOnce_blockOperation opcode linkage
  · exact (Handler.within_repeatPrefix hsets linkage opcode fun _ _ => rfl).storesOnce
  · exact (Handler.within_halt hsets linkage opcode fun _ => rfl).storesOnce
  · exact (Handler.within_directionFlag hsets linkage opcode fun _ _ => rfl).storesOnce

end InstructionSet

/-! ## Calls -/

/-- All that the functions of the registry may do to the guest is known: each of them is typed, or
it is the function of that name of `kernel32` or `user32`. -/
def Registry.Plain (registry : Registry) : Prop :=
  ∀ symbol f, registry.table.function? symbol = some f →
    (∃ parameters body, f = .typed parameters body) ∨
      Win32.kernel32Table.function? symbol = some f ∨ Win32.user32Table.function? symbol = some f

/-- A call of `target` is a call of `ExitProcess`, and the first registry with a function of that
name has the one that halts the processor. -/
def ServesExit (imports : Imports) (registries : List Registry) (target : UInt32) : Prop :=
  imports.name? target = some "ExitProcess" ∧
    ∃ registry, registries.find? (·.table.contains "ExitProcess") = some registry ∧
      registry.table.function? "ExitProcess" = some (.variadic Win32.exitProcess)

/-- Of the functions of the libraries that are not typed, one halts the processor. -/
theorem Win32.eq_of_variadic {symbol : String} {body : Cpu → Cpu × List Event}
    (h : kernel32Table.function? symbol = some (.variadic body) ∨
      user32Table.function? symbol = some (.variadic body)) :
    body = getTickCount ∨ symbol = "ExitProcess" ∧ body = exitProcess := by
  rcases h with hkernel32 | huser32
  · rcases eq_of_kernel32Table hkernel32 with htyped | htyped | hclock | ⟨hsymbol, hexit⟩
    · cases htyped
    · cases htyped
    · cases hclock
      exact .inl rfl
    · cases hexit
      exact .inr ⟨hsymbol, rfl⟩
  · cases eq_of_user32Table huser32

theorem Win32.returnFromHost_returnWith (cpu : Cpu) (value result cleanup : UInt32) :
    (returnWith cpu value).returnFromHost result cleanup = cpu.returnFromHost result cleanup := by
  simp only [Cpu.returnFromHost, returnWith, Cpu.set, Registers.set, Cpu.jump, Cpu.releaseFrame,
    Cpu.pop]

/-- The state that an answer leaves for the return to the guest, which sets EAX and EIP anyway. -/
theorem Registry.Plain.returnFromHost {registry : Registry} (h : registry.Plain) {symbol : String}
    {cpu : Cpu} {reply : HostReply} (hanswer : registry.emulator.answer? symbol cpu = some reply)
    (result cleanup : UInt32) :
    ∃ halted, reply.cpu.returnFromHost result cleanup =
        { cpu with halted }.returnFromHost result cleanup ∧
      (halted = cpu.halted ∨ halted = true ∧ symbol = "ExitProcess" ∧
        registry.table.function? symbol = some (.variadic Win32.exitProcess)) := by
  obtain ⟨f, hf, rfl⟩ := Option.map_eq_some_iff.mp hanswer
  cases f with
  | typed parameters body => exact ⟨cpu.halted, rfl, .inl rfl⟩
  | variadic body =>
    rcases h symbol _ hf with ⟨_, _, htyped⟩ | hlibrary
    · cases htyped
    rcases Win32.eq_of_variadic hlibrary with rfl | ⟨hsymbol, rfl⟩
    · exact ⟨cpu.halted, Win32.returnFromHost_returnWith _ _ _ _, .inl rfl⟩
    · exact ⟨true, Win32.returnFromHost_returnWith _ _ _ _, .inr ⟨rfl, hsymbol, hf⟩⟩

namespace Cpu

variable {imports : Imports} {registries : List Registry} {called cpu' : Cpu} {target : UInt32}

/-- **How a call ends** of registries that are plain: in the guest, or back at the caller with an
answer. -/
theorem CallEnds.of_plain (hplain : ∀ registry ∈ registries, registry.Plain)
    (hends : called.CallEnds { imports, emulators := registries.map Registry.emulator } target cpu') :
    cpu' = called.jump target ∨
      ∃ result cleanup halted, cpu' = { called with halted }.returnFromHost result cleanup ∧
        (halted = called.halted ∨ halted = true ∧ ServesExit imports registries target) := by
  cases hends with
  | unnamed => exact .inl rfl
  | @unserved symbol asked events hname hconsult =>
    rcases consult_registries_cases symbol registries called
      with hrun | ⟨registry, reply, hfirst, hanswer, hrun⟩ <;> cases hconsult.symm.trans hrun
    exact .inl rfl
  | @served symbol emulator result asked events hname hconsult =>
    rcases consult_registries_cases symbol registries called
      with hrun | ⟨registry, reply, hfirst, hanswer, hrun⟩ <;> cases hconsult.symm.trans hrun
    have hregistry : registry.Plain := hplain registry (List.mem_of_find?_eq_some hfirst)
    obtain ⟨halted, hreturn, hhalted⟩ :=
      hregistry.returnFromHost hanswer reply.result (registry.emulator.cleanup symbol)
    refine .inr ⟨_, _, halted, hreturn, hhalted.imp id ?_⟩
    rintro ⟨hset, rfl, hexit⟩
    exact ⟨hset, hname, registry, hfirst, hexit⟩

end Cpu

/-! ## One instruction -/

/-- How little the instruction at EIP of `cpu` has changed of the flags in `cpu'`. -/
structure Cpu.KeepsFlags (cpu cpu' : Cpu) : Prop where
  interrupt : cpu'.flags.interrupt = cpu.flags.interrupt
  /-- Only CLD and STD move the direction. -/
  direction : cpu'.flags.direction = cpu.flags.direction ∨ cpu.opcode = 0xfc ∨ cpu.opcode = 0xfd
  /-- Only SCASB moves the flags of a comparison. -/
  comparison : (cpu'.flags.zero = cpu.flags.zero ∧ cpu'.flags.carry = cpu.flags.carry ∧
    cpu'.flags.sign = cpu.flags.sign ∧ cpu'.flags.overflow = cpu.flags.overflow ∧
    cpu'.flags.parity = cpu.flags.parity) ∨ cpu.opcode = 0xae

/-- How little the instruction at EIP of `cpu` has changed in `cpu'`, apart from registers, EIP and
the pending prefix. -/
structure Cpu.Footprint (imports : Imports) (registries : List Registry) (cpu cpu' : Cpu) : Prop
    extends cpu.KeepsFlags cpu' where
  /-- Bytes change in one place only, which spans four bytes at most, on writable pages. -/
  memory : ∃ a n, n ≤ 4 ∧ cpu.memory.ChangesWithin a n cpu'.memory
  residentPages : cpu'.memory.residentPages ≤ cpu.memory.residentPages + 2
  /-- The processor is halted, if at all, by HLT or by a call of `ExitProcess`. -/
  halted : cpu'.halted = cpu.halted ∨ cpu'.halted = true ∧
    (cpu.opcode = 0xf4 ∨
      ∃ target next, cpu.Calls target next ∧ ServesExit imports registries target)
  retired : cpu'.retired = cpu.retired + 1
  /-- Only calls and returns touch the frames, and they do so at one slot. -/
  frames : cpu'.frames = cpu.frames ∨
    ((∃ target next, cpu.Calls target next) ∨ ∃ released, cpu.Returns released) ∧
      ∃ slot : UInt32, ∀ other : UInt32, other ≠ slot → cpu'.frames[other]? = cpu.frames[other]?

theorem Cpu.KeepsFlags.of_eq {cpu cpu' : Cpu} (h : cpu'.flags = cpu.flags) :
    cpu.KeepsFlags cpu' := by
  refine ⟨?_, .inl ?_, .inl ⟨?_, ?_, ?_, ?_, ?_⟩⟩ <;> rw [h]

namespace InstructionSet

variable {imports : Imports} {registries : List Registry} {cpu cpu' : Cpu}

/-- A call that succeeds stores its return address, and notes its frame or releases it. -/
theorem footprint_of_calls (hplain : ∀ registry ∈ registries, registry.Plain)
    {target next : UInt32} (hcalls : cpu.Calls target next)
    (hdispatches : cpu.Dispatches { imports, emulators := registries.map Registry.emulator } cpu') :
    cpu.Footprint imports registries cpu' := by
  obtain ⟨hstack, entered, hends, rfl⟩ := hdispatches.callEnds hcalls
  have hstores : cpu.memory.StoresOnce (cpu.memory.store32 (cpu.esp - 4) next) :=
    Memory.storesOnce_store32 next hstack
  rcases hends.of_plain hplain with rfl | ⟨result, cleanup, halted, rfl, hhalted⟩
  · refine ⟨.of_eq rfl, hstores.exists_changesWithin, hstores.residentPages_le, .inl rfl, rfl,
      .inr ⟨.inl ⟨target, next, hcalls⟩, cpu.esp - 4, ?_⟩⟩
    intro other hother
    change (cpu.frames.insert (cpu.esp - 4) next)[other]? = _
    rw [Std.ExtTreeMap.getElem?_insert]
    simp [Ne.symm hother]
  · refine ⟨.of_eq rfl, hstores.exists_changesWithin, hstores.residentPages_le, ?_, rfl,
      .inr ⟨.inl ⟨target, next, hcalls⟩, cpu.esp - 4, ?_⟩⟩
    · rcases hhalted with hsame | ⟨hset, hexit⟩
      · exact .inl hsame
      · exact .inr ⟨hset, .inr ⟨target, next, hcalls, hexit⟩⟩
    · intro other hother
      change ((cpu.frames.insert (cpu.esp - 4) next).erase (cpu.esp - 4))[other]? = _
      rw [erase_insert_frames, Std.ExtTreeMap.getElem?_erase]
      simp [Ne.symm hother]

/-- A return releases the frame at the top of the stack. -/
theorem footprint_of_returns {released : UInt32} (hreturns : cpu.Returns released)
    {linkage : Linkage} (hdispatches : cpu.Dispatches linkage cpu') :
    cpu.Footprint imports registries cpu' := by
  obtain ⟨events, hrun⟩ := hdispatches
  rw [dispatch_of_returns hreturns] at hrun
  cases hrun
  have hstores : cpu.memory.StoresOnce cpu.memory := .refl _
  refine ⟨.of_eq rfl, hstores.exists_changesWithin, hstores.residentPages_le, .inl rfl, rfl,
    .inr ⟨.inr ⟨released, hreturns⟩, cpu.esp, ?_⟩⟩
  intro other hother
  change (cpu.frames.erase cpu.esp)[other]? = _
  rw [Std.ExtTreeMap.getElem?_erase]
  simp [Ne.symm hother]

/-- What the handlers that neither call nor return do to the flags. -/
theorem keepsFlags_of_plain (cpu : Cpu) {linkage : Linkage} {handler : Handler}
    (hmem : handler ∈ plainHandlers) (hclaims : handler.claims cpu.opcode = true) {left : Cpu}
    {events : List Event}
    (hexecute : (handler.execute cpu.opcode linkage).run cpu = ⟨.ok (), left, events⟩) :
    cpu.KeepsFlags left := by
  have hmoves : PermitsMoves (Cpu.Keeps Cpu.flags) := permitsMoves_keeps fun _ _ _ _ => rfl
  have hsets := hmoves.toPermitsSets
  rcases move_or_of_mem_plainHandlers hmem with hmove | rfl | rfl | rfl | rfl
  · have hwithin := moveHandlers_within hmoves linkage handler hmove cpu.opcode
    exact .of_eq (hwithin.of_run hexecute)
  · by_cases hscan : cpu.opcode = 0xae
    · -- a comparison has no say in the direction and in interrupts
      have hothers : PermitsMoves
          (Cpu.Keeps fun cpu => (cpu.flags.interrupt, cpu.flags.direction)) :=
        permitsMoves_keeps fun _ _ _ _ => rfl
      have hwithin := Handler.within_blockOperation hothers linkage cpu.opcode (fun _ _ => rfl)
        fun _ _ _ _ => rfl
      obtain ⟨hinterrupt, hdirection⟩ := Prod.mk.inj (hwithin.of_run hexecute)
      exact ⟨hinterrupt, .inl hdirection, .inr hscan⟩
    · have hwithin := Handler.within_blockOperation hmoves linkage cpu.opcode (fun _ _ => rfl)
        fun hcompares => absurd (BlockOp.opcode_of_ofOpcode? hcompares) hscan
      exact .of_eq (hwithin.of_run hexecute)
  · have hwithin := Handler.within_repeatPrefix hsets linkage cpu.opcode fun _ _ => rfl
    exact .of_eq (hwithin.of_run hexecute)
  · have hwithin := Handler.within_halt hsets linkage cpu.opcode fun _ => rfl
    exact .of_eq (hwithin.of_run hexecute)
  · -- CLD and STD keep the flags but for the direction
    have hothers : PermitsSets (Cpu.Keeps fun cpu => { cpu.flags with direction := false }) :=
      permitsSets_keeps fun _ _ _ => rfl
    have hwithin := Handler.within_directionFlag hothers linkage cpu.opcode fun _ _ => rfl
    obtain ⟨hzero, hcarry, hsign, hoverflow, -, hinterrupt, hparity⟩ :=
      Flags.mk.inj (hwithin.of_run hexecute)
    exact ⟨hinterrupt, .inr (of_decide_eq_true hclaims),
      .inl ⟨hzero, hcarry, hsign, hoverflow, hparity⟩⟩

/-- Of these handlers, only that of HLT halts the processor. -/
theorem halted_of_plain (cpu : Cpu) {linkage : Linkage} {handler : Handler}
    (hmem : handler ∈ plainHandlers) (hclaims : handler.claims cpu.opcode = true) {left : Cpu}
    {events : List Event}
    (hexecute : (handler.execute cpu.opcode linkage).run cpu = ⟨.ok (), left, events⟩) :
    left.halted = cpu.halted ∨ left.halted = true ∧ cpu.opcode = 0xf4 := by
  have hmoves : PermitsMoves (Cpu.Keeps Cpu.halted) := permitsMoves_keeps fun _ _ _ _ => rfl
  have hsets := hmoves.toPermitsSets
  rcases move_or_of_mem_plainHandlers hmem with hmove | rfl | rfl | rfl | rfl
  · have hwithin := moveHandlers_within hmoves linkage handler hmove cpu.opcode
    exact .inl (hwithin.of_run hexecute)
  · have hwithin := Handler.within_blockOperation hmoves linkage cpu.opcode (fun _ _ => rfl)
      fun _ _ _ _ => rfl
    exact .inl (hwithin.of_run hexecute)
  · have hwithin := Handler.within_repeatPrefix hsets linkage cpu.opcode fun _ _ => rfl
    exact .inl (hwithin.of_run hexecute)
  · cases hexecute
    exact .inr ⟨rfl, of_decide_eq_true hclaims⟩
  · have hwithin := Handler.within_directionFlag hsets linkage cpu.opcode fun _ _ => rfl
    exact .inl (hwithin.of_run hexecute)

/-- A handler that neither calls nor returns leaves the frames alone, whatever prefix has been left
to it. -/
theorem footprint_of_plain {linkage : Linkage} {handler : Handler} (hmem : handler ∈ plainHandlers)
    (hclaims : handler.claims cpu.opcode = true) {rep : Option RepPrefix} {left : Cpu}
    {events : List Event} (hexecute : (handler.execute cpu.opcode linkage).run { cpu with rep } =
      ⟨.ok (), left, events⟩) : cpu.Footprint imports registries left.retire := by
  have hstores : Cpu.StoresOnce { cpu with rep } left :=
    (plainHandlers_storesOnce linkage handler hmem cpu.opcode).of_run hexecute
  have hframes : Cpu.SameFrames { cpu with rep } left :=
    (plainHandlers_within permitsPlain_sameFrames linkage handler hmem cpu.opcode).of_run hexecute
  have hretired : Cpu.SameRetired { cpu with rep } left :=
    (plainHandlers_within permits_sameRetired.toPermitsPlain linkage handler hmem
      cpu.opcode).of_run hexecute
  have hflags := keepsFlags_of_plain { cpu with rep } hmem hclaims hexecute
  refine ⟨⟨hflags.interrupt, hflags.direction, hflags.comparison⟩, hstores.exists_changesWithin,
    hstores.residentPages_le, ?_, congrArg (· + 1) hretired, .inl hframes⟩
  rcases halted_of_plain { cpu with rep } hmem hclaims hexecute with hsame | ⟨hset, hopcode⟩
  · exact .inl hsame
  · exact .inr ⟨hset, .inl hopcode⟩

/-- **One instruction changes little.** The program is linked to registries in which every function
is typed, or is one of `kernel32` or `user32`, and the instruction at EIP succeeds. Then

* interrupts are allowed as before, the direction is the same unless the instruction is CLD or STD,
  and so are the flags of a comparison unless it is SCASB;
* of the memory, no byte has changed but those of a run of at most four, around the top of the
  address space if need be, all of them on writable pages, and at most two pages have become
  resident, which are pages of that run;
* the processor has been halted at most by HLT, or by a call that the host has answered with
  `ExitProcess`, and it has not been set going again;
* one instruction has retired;
* the frames are the same, but for one slot after a call or a return. -/
theorem dispatch_footprint (hplain : ∀ registry ∈ registries, registry.Plain) {events : List Event}
    (hrun : (standard.dispatch { imports, emulators := registries.map Registry.emulator }).run cpu =
      ⟨.ok (), cpu', events⟩) : cpu.Footprint imports registries cpu' := by
  obtain ⟨handler, left, events', hhandler, hexecute, rfl⟩ := exists_of_dispatch _ hrun
  have hclaims := claims_of_standard_handler? hhandler
  rcases plain_or_of_mem_standardHandlers (mem_of_standard_handler? hhandler)
    with hmem | rfl | rfl | rfl
  · rw [primed] at hexecute
    exact footprint_of_plain hmem hclaims hexecute
  · exact footprint_of_calls hplain (.relative (of_decide_eq_true hclaims)) ⟨events, hrun⟩
  · obtain ⟨target, next, hcalls⟩ :=
      Cpu.Dispatches.exists_calls ⟨events, hrun⟩ (of_decide_eq_true hclaims)
    exact footprint_of_calls hplain hcalls ⟨events, hrun⟩
  · rcases of_decide_eq_true hclaims with hopcode | hopcode
    · exact footprint_of_returns (.counted hopcode) ⟨events, hrun⟩
    · exact footprint_of_returns (.plain hopcode) ⟨events, hrun⟩

/-- A processor about to call the address in EAX, with its stack pointer next to the bottom of the
address space: the return address goes around the top of it. -/
def exitingCall : Cpu where
  registers := { eax := 0x7ff00000, esp := 2 }
  eip := 0x1000
  memory := ({} : Memory).storeBytes 0x1000 [0xff, 0xd0]

theorem dispatch_footprint_exitingCall :
    let imports := Imports.ofList [("ExitProcess", 0x7ff00000)]
    let registries : List Registry :=
      [⟨"kernel32", Win32.kernel32Table⟩, ⟨"user32", Win32.user32Table⟩, adder]
    let outcome := (standard.dispatch
      { imports, emulators := registries.map Registry.emulator }).run exitingCall
    outcome.result = .ok () ∧ outcome.cpu.halted = true ∧
      exitingCall.Footprint imports registries outcome.cpu := by
  intro imports registries outcome
  have hplain : ∀ registry ∈ registries, registry.Plain := by
    intro registry hregistry symbol f hf
    simp only [registries, List.mem_cons, List.not_mem_nil, or_false] at hregistry
    rcases hregistry with rfl | rfl | rfl
    · exact .inr (.inl hf)
    · exact .inr (.inr hf)
    · simp only [adder, FunctionTable.function?_insert] at hf
      split at hf
      · cases hf
        exact .inl ⟨_, _, rfl⟩
      · simp [FunctionTable.function?] at hf
  have hopcode : exitingCall.opcode = 0xff := by
    simp [exitingCall, Cpu.opcode, Memory.storeBytes, Memory.read8_store8]
  have hform : exitingCall.codeByte 1 = 0xd0 := by
    simp [exitingCall, Cpu.codeByte, Memory.storeBytes]
  have hcalls : exitingCall.Calls 0x7ff00000 0x1002 := by
    have := Cpu.Calls.register hopcode (by rw [hform]; decide) (by rw [hform]; decide)
    rwa [hform] at this
  have hstack : exitingCall.memory.Writable (exitingCall.esp - 4) 4 := by
    intro a _
    simp [exitingCall, Memory.storeBytes]
  have hsymbol : imports.name? 0x7ff00000 = some "ExitProcess" := by rfl
  obtain ⟨left, events, hrun, hhalted⟩ :
      ∃ left events, outcome = ⟨.ok (), left, events⟩ ∧ left.halted = true :=
    have hanswer : Win32.kernel32.answer? "ExitProcess" (exitingCall.dropRep.called 0x1002) =
        some _ := rfl
    ⟨_, _, dispatch_answered hcalls hstack hsymbol hanswer _, rfl⟩
  have hfootprint : exitingCall.Footprint imports registries left := dispatch_footprint hplain hrun
  rw [hrun]
  exact ⟨rfl, hhalted, hfootprint⟩

end InstructionSet

end Ia32
