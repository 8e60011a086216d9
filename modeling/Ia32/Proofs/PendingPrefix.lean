import Ia32.Proofs.BlockScan
import Ia32.Proofs.Steps

/-!
# The life of a repeat prefix

A repeat prefix is an instruction of its own, which leaves a note in the state for the dispatches
that come after it.

* `within_of_not_usesRep`: handlers that have no use for a prefix leave the note alone.
* `usesRep_iff`: only prefixes and block operations have one.
* `dispatch_blockOp_rep`: a block operation keeps the prefix for its next element, or takes it
  away.
* `dispatch_rep`: **a prefix is pending after a prefix, and before each further element of a block
  operation**; no other instruction sees it or leaves it behind.
-/

namespace Ia32

/-- The instruction at EIP is a block operation under the prefix, and after its next element there
is one more to come: the count is not used up, and no comparison ends the loop. -/
structure Cpu.Continues (cpu : Cpu) (kind : RepPrefix) : Prop where
  block : ∃ op : BlockOp, cpu.opcode = op.opcode
  pending : cpu.rep = some kind
  count : 2 ≤ cpu.ecx
  goesOn : cpu.opcode = BlockOp.scanByte.opcode →
    ¬ kind.Stops cpu.al (cpu.memory.read8 cpu.registers.edi)

/-- How the note of a prefix and EIP stand in `cpu'`, after the instruction at EIP of `cpu`. -/
structure Cpu.RepAfter (cpu cpu' : Cpu) : Prop where
  /-- The prefix has just been noted, or it waits for another element. -/
  pending : ∀ kind, cpu'.rep = some kind ↔ cpu.opcode = kind.opcode ∨ cpu.Continues kind
  /-- A prefix is followed by the instruction that it is for. -/
  noted : ∀ kind : RepPrefix, cpu.opcode = kind.opcode → cpu'.eip = cpu.eip + 1
  /-- A block operation that goes on is dispatched again. -/
  waits : ∀ kind, cpu.Continues kind → cpu'.eip = cpu.eip

/-- Calls and returns keep the prefix. -/
theorem permitsCalls_rep : PermitsCalls (Cpu.Keeps Cpu.rep) where
  toPermitsMoves := permitsMoves_keeps fun _ _ _ _ => rfl
  frames _ _ := rfl

/-- So do the emulated libraries. -/
theorem Win32.libraries_keep_rep : ∀ emulator ∈ libraries, emulator.Within (Cpu.Keeps Cpu.rep) :=
  libraries_within_of_sets permitsCalls_rep.toPermitsSets fun _ => rfl

/-! ## Block operations -/

theorem RepPrefix.opcode_injective : Function.Injective opcode := by
  intro kind kind' h
  cases kind <;> cases kind' <;> first | rfl | exact absurd h (by decide)

/-- Only a comparison ends a repetition before its count does. -/
theorem BlockOp.settled_one (op : BlockOp) (kind : RepPrefix) (cpu : Cpu) :
    op.settled kind (op.flagsAfter cpu 1) = true ↔
      op = scanByte ∧ kind.Stops cpu.al (cpu.memory.read8 cpu.registers.edi) := by
  by_cases hop : op = scanByte
  · have hedi : cpu.past .edi 1 0 = cpu.registers.edi := Cpu.past_zero cpu .edi 1
    rw [hop, settled_scanByte kind cpu 0, hedi]
    exact (and_iff_right rfl).symm
  · simp [settled, hop]

/-- After an element under the prefix there is one more to come unless the count is used up by it,
or it settles the loop. -/
theorem Cpu.continues_iff {cpu : Cpu} {op : BlockOp} {kind : RepPrefix}
    (hopcode : cpu.opcode = op.opcode) (hrep : cpu.rep = some kind) (hecx : cpu.ecx ≠ 0) :
    cpu.Continues kind ↔
      ¬ (cpu.ecx - UInt32.ofNat 1 = 0 ∨ op.settled kind (op.flagsAfter cpu 1) = true) := by
  have hcount : ¬ cpu.ecx - UInt32.ofNat 1 = 0 ↔ 2 ≤ cpu.ecx := by
    have hpos : cpu.ecx.toNat ≠ 0 := fun hzero => hecx (UInt32.toNat_inj.mp hzero)
    rw [← UInt32.toNat_inj, InstructionSet.toNat_sub_ofNat (by omega), UInt32.le_iff_toNat_le]
    simp only [UInt32.reduceToNat]
    omega
  have hscan : cpu.opcode = BlockOp.scanByte.opcode ↔ op = .scanByte := by
    rw [hopcode]
    exact BlockOp.opcode_injective.eq_iff
  rw [not_or, hcount, BlockOp.settled_one, ← hscan, not_and]
  constructor
  · intro hcontinues
    exact ⟨hcontinues.count, hcontinues.goesOn⟩
  · rintro ⟨hle, hgoesOn⟩
    exact ⟨⟨op, hopcode⟩, hrep, hle, hgoesOn⟩

namespace InstructionSet

open BlockOp

variable {cpu cpu' : Cpu} {linkage : Linkage} {events : List Event}

/-- An element that is done leaves the prefix for the next one, or takes it away as the last. -/
theorem countDown_rep {op : BlockOp} (hopcode : cpu.opcode = op.opcode) {done : Cpu}
    (helement : op.element? cpu = .ok done) (hsome : ¬ (cpu.rep.isSome ∧ cpu.ecx = 0)) :
    (∃ kind, cpu.Continues kind ∧ (op.countDown done).retire.rep = some kind ∧
        (op.countDown done).retire.eip = cpu.eip) ∨
      (∀ kind, ¬ cpu.Continues kind) ∧ (op.countDown done).retire.rep = none := by
  have hone := underway_one helement
  have hpending (kind : RepPrefix) (hcontinues : cpu.Continues kind) : cpu.rep = some kind :=
    hcontinues.pending
  -- without a prefix the count is not looked at, and there is no next element
  cases hrep : cpu.rep with
  | none =>
    have hdone : done.rep = none := hone.rep.trans hrep
    refine .inr ⟨fun kind hcontinues => ?_, ?_⟩
    · cases hrep.symm.trans (hpending kind hcontinues)
    · rw [countDown, hdone]
      exact hdone
  | some kind =>
    have hdone : done.rep = some kind := hone.rep.trans hrep
    have hecx : cpu.ecx ≠ 0 := by
      intro hzero
      apply hsome
      exact ⟨by rw [hrep]; rfl, hzero⟩
    rw [retire_countDown op hdone rfl, hone.ecx, hone.flags]
    split
    · rename_i hlast
      refine .inr ⟨fun kind' hcontinues => ?_, rfl⟩
      cases hrep.symm.trans (hpending kind' hcontinues)
      exact (Cpu.continues_iff hopcode hrep hecx).mp hcontinues hlast
    · rename_i hmore
      have hcontinues : cpu.Continues kind := (Cpu.continues_iff hopcode hrep hecx).mpr hmore
      exact .inl ⟨kind, hcontinues, hone.rep.trans hrep, hone.eip⟩

/-- **A block operation keeps the prefix for its next element**, and EIP with it; after the last
element, and without a prefix, none is pending. -/
theorem dispatch_blockOp_rep {op : BlockOp} (hopcode : cpu.opcode = op.opcode)
    (hrun : (standard.dispatch linkage).run cpu = ⟨.ok (), cpu', events⟩) :
    (∃ kind, cpu.Continues kind ∧ cpu'.rep = some kind ∧ cpu'.eip = cpu.eip) ∨
      (∀ kind, ¬ cpu.Continues kind) ∧ cpu'.rep = none := by
  rw [dispatch_blockOp hopcode] at hrun
  split at hrun
  · -- there is no element at all
    rename_i hnone
    cases hrun
    refine .inr ⟨fun kind hcontinues => ?_, rfl⟩
    have hcount : 2 ≤ cpu.ecx := hcontinues.count
    rw [hnone.2] at hcount
    exact absurd hcount (by decide)
  · rename_i hsome
    cases helement : op.element? cpu with
    | error violation =>
      rw [helement] at hrun
      cases hrun
    | ok done =>
      rw [helement] at hrun
      cases hrun
      exact countDown_rep hopcode helement hsome

/-! ## Handlers -/

theorem eq_of_usesRep {handler : Handler} (hmem : handler ∈ standardHandlers)
    (huses : handler.usesRep = true) : handler = .blockOperation ∨ handler = .repeatPrefix := by
  have hmoves : ∀ handler ∈ moveHandlers, handler.usesRep = false := by decide
  rcases plain_or_of_mem_standardHandlers hmem with hplain | rfl | rfl | rfl
  · rcases move_or_of_mem_plainHandlers hplain with hmove | hblock | hnote | rfl | rfl
    · rw [hmoves handler hmove] at huses
      cases huses
    · exact .inl hblock
    · exact .inr hnote
    · cases huses
    · cases huses
  · cases huses
  · cases huses
  · cases huses

/-- Only prefixes and block operations have a use for a prefix. -/
theorem usesRep_iff {opcode : UInt8} {handler : Handler}
    (h : standard.handler? opcode = some handler) : handler.usesRep = true ↔
      (∃ kind : RepPrefix, opcode = kind.opcode) ∨ ∃ op : BlockOp, opcode = op.opcode := by
  constructor
  · intro huses
    have hclaims := claims_of_standard_handler? h
    rcases eq_of_usesRep (mem_of_standard_handler? h) huses with rfl | rfl
    · obtain ⟨op, hop⟩ := Option.isSome_iff_exists.mp hclaims
      exact .inr ⟨op, opcode_of_ofOpcode? hop⟩
    · rcases of_decide_eq_true hclaims with hrepne | hrep
      · exact .inl ⟨.repne, hrepne⟩
      · exact .inl ⟨.rep, hrep⟩
  · rintro (⟨kind, rfl⟩ | ⟨op, rfl⟩)
    · rw [standard_handler?_repPrefix] at h
      cases h
      rfl
    · rw [standard_handler?_blockOp] at h
      cases h
      rfl

/-- All other handlers run without the prefix. -/
theorem not_usesRep_iff {opcode : UInt8} {handler : Handler}
    (h : standard.handler? opcode = some handler) : handler.usesRep = false ↔
      (∀ kind : RepPrefix, opcode ≠ kind.opcode) ∧ ∀ op : BlockOp, opcode ≠ op.opcode := by
  rw [← Bool.not_eq_true, usesRep_iff h, not_or, not_exists, not_exists]

/-- **A handler that has no use for a prefix leaves it alone**, if the emulators do. -/
theorem within_of_not_usesRep (hquiet : linkage.Within (Cpu.Keeps Cpu.rep)) {handler : Handler}
    (hmem : handler ∈ standardHandlers) (huses : handler.usesRep = false) (opcode : UInt8) :
    Exec.Within (Cpu.Keeps Cpu.rep) (handler.execute opcode linkage) := by
  have hmoves := permitsCalls_rep.toPermitsMoves
  have hsets := permitsCalls_rep.toPermitsSets
  rcases plain_or_of_mem_standardHandlers hmem with hplain | rfl | rfl | rfl
  · rcases move_or_of_mem_plainHandlers hplain with hmove | rfl | rfl | rfl | rfl
    · exact moveHandlers_within hmoves linkage handler hmove opcode
    · cases huses
    · cases huses
    · exact Handler.within_halt hsets linkage opcode fun _ => rfl
    · exact Handler.within_directionFlag hsets linkage opcode fun _ _ => rfl
  · exact Handler.within_callRelative permitsCalls_rep opcode hquiet
  · exact Handler.within_callIndirect permitsCalls_rep opcode hquiet
  · exact Handler.within_ret permitsCalls_rep opcode

/-- An instruction that has no use for a prefix is carried out as if none were pending. -/
theorem dispatch_of_not_usesRep {handler : Handler}
    (h : standard.handler? cpu.opcode = some handler) (huses : handler.usesRep = false)
    (linkage : Linkage) (rep : Option RepPrefix) :
    let outcome := (standard.dispatch linkage).run { cpu with rep }
    let plain := (standard.dispatch linkage).run { cpu with rep := none }
    outcome.result = plain.result ∧ outcome.cpu = plain.cpu := by
  intro outcome plain
  -- both handlers run in the state without a prefix; only the notes of the dispatcher differ
  have hnoted : standard.handler? ({ cpu with rep } : Cpu).opcode = some handler := h
  have houtcome : outcome = concluded (standard.preamble { cpu with rep })
      ((handler.execute cpu.opcode linkage).run cpu.dropRep) :=
    dispatch_run_dropRep linkage hnoted huses
  have hdropped : standard.handler? cpu.dropRep.opcode = some handler := h
  have hplain : plain = concluded (standard.preamble cpu.dropRep)
      ((handler.execute cpu.opcode linkage).run cpu.dropRep) :=
    dispatch_run_dropRep linkage hdropped huses
  rw [houtcome, hplain]
  rcases (handler.execute cpu.opcode linkage).run cpu.dropRep with ⟨fault | _, cpu', events⟩
  · rw [concluded_error, concluded_error]
    exact ⟨rfl, rfl⟩
  · rw [concluded_ok, concluded_ok]
    exact ⟨rfl, rfl⟩

/-- No prefix is pending after an instruction that has no use for it. -/
theorem rep_of_not_usesRep {handler : Handler}
    (h : standard.handler? cpu.opcode = some handler) (huses : handler.usesRep = false)
    (hquiet : linkage.Within (Cpu.Keeps Cpu.rep))
    (hrun : (standard.dispatch linkage).run cpu = ⟨.ok (), cpu', events⟩) : cpu'.rep = none := by
  obtain ⟨handler', left, events', h', hexecute, rfl⟩ := exists_of_dispatch linkage hrun
  obtain rfl : handler = handler' := Option.some.inj (h.symm.trans h')
  have hkept := within_of_not_usesRep hquiet (mem_of_standard_handler? h) huses cpu.opcode
  rw [primed_of_not_usesRep h huses] at hexecute
  exact hkept.of_run hexecute

/-! ## The life of a prefix -/

theorem repAfter_of_repPrefix {noted : RepPrefix} (hnoted : cpu.opcode = noted.opcode)
    (hrun : (standard.dispatch linkage).run cpu = ⟨.ok (), cpu', events⟩) : cpu.RepAfter cpu' := by
  rw [dispatch_repPrefix hnoted] at hrun
  cases hrun
  have hcontinues (kind : RepPrefix) : ¬ cpu.Continues kind := by
    intro h
    obtain ⟨op, hop⟩ := h.block
    exact op.opcode_ne_opcode noted (hop.symm.trans hnoted)
  refine ⟨fun kind => ?_, fun _ _ => rfl, fun kind h => absurd h (hcontinues kind)⟩
  rw [or_iff_left (hcontinues kind), hnoted, RepPrefix.opcode_injective.eq_iff]
  exact Option.some_inj

theorem repAfter_of_blockOp {op : BlockOp} (hopcode : cpu.opcode = op.opcode)
    (hrun : (standard.dispatch linkage).run cpu = ⟨.ok (), cpu', events⟩) : cpu.RepAfter cpu' := by
  -- the instruction is no prefix itself, so the prefix in question is the one from before
  have hnote (kind : RepPrefix) : cpu.opcode ≠ kind.opcode := by
    rw [hopcode]
    exact op.opcode_ne_opcode kind
  rcases dispatch_blockOp_rep hopcode hrun with ⟨kept, hkept, hrep, heip⟩ | ⟨hlast, hrep⟩
  · refine ⟨fun kind => ?_, fun kind hkind => absurd hkind (hnote kind), fun _ _ => heip⟩
    rw [hrep, or_iff_right (hnote kind)]
    constructor
    · rintro ⟨⟩
      exact hkept
    · intro h
      exact hkept.pending.symm.trans h.pending
  · refine ⟨fun kind => ?_, fun kind hkind => absurd hkind (hnote kind),
      fun kind h => absurd h (hlast kind)⟩
    rw [hrep]
    exact iff_of_false nofun (not_or.mpr ⟨hnote kind, hlast kind⟩)

theorem repAfter_of_not_usesRep {handler : Handler}
    (h : standard.handler? cpu.opcode = some handler) (huses : handler.usesRep = false)
    (hquiet : linkage.Within (Cpu.Keeps Cpu.rep))
    (hrun : (standard.dispatch linkage).run cpu = ⟨.ok (), cpu', events⟩) : cpu.RepAfter cpu' := by
  have hrep : cpu'.rep = none := rep_of_not_usesRep h huses hquiet hrun
  obtain ⟨hnote, hblock⟩ : (∀ kind : RepPrefix, cpu.opcode ≠ kind.opcode) ∧
      ∀ op : BlockOp, cpu.opcode ≠ op.opcode := not_usesRep_iff h |>.mp huses
  have hcontinues (kind : RepPrefix) : ¬ cpu.Continues kind := by
    intro hkind
    obtain ⟨op, hop⟩ := hkind.block
    exact hblock op hop
  refine ⟨fun kind => ?_, fun kind hkind => absurd hkind (hnote kind),
    fun kind hkind => absurd hkind (hcontinues kind)⟩
  rw [hrep]
  exact iff_of_false nofun (not_or.mpr ⟨hnote kind, hcontinues kind⟩)

/-- **The life of a repeat prefix.** The program is linked to emulators that leave the prefix
alone, and the instruction at EIP succeeds. Then a prefix is pending afterwards

* if the instruction is that prefix, whatever was pending before, and EIP is on the next byte; or
* if it is a block operation under that prefix and there is one more element to come, and EIP is
  where it was;

and in no other case. Besides, whatever the program is linked to, an instruction that has a handler
and is neither a prefix nor a block operation does not see the prefix: it ends in the same way and
in the same state as if none were pending. -/
theorem dispatch_rep (linkage : Linkage) (cpu : Cpu) :
    (linkage.Within (Cpu.Keeps Cpu.rep) → ∀ cpu' events,
      (standard.dispatch linkage).run cpu = ⟨.ok (), cpu', events⟩ →
        (∀ kind, cpu'.rep = some kind ↔ cpu.opcode = kind.opcode ∨ cpu.Continues kind) ∧
        (∀ kind : RepPrefix, cpu.opcode = kind.opcode → cpu'.eip = cpu.eip + 1) ∧
        ∀ kind, cpu.Continues kind → cpu'.eip = cpu.eip) ∧
    (Claimed cpu.opcode → (∀ kind : RepPrefix, cpu.opcode ≠ kind.opcode) →
      (∀ op : BlockOp, cpu.opcode ≠ op.opcode) → ∀ rep,
        let outcome := (standard.dispatch linkage).run { cpu with rep }
        let plain := (standard.dispatch linkage).run { cpu with rep := none }
        outcome.result = plain.result ∧ outcome.cpu = plain.cpu) := by
  constructor
  · intro hquiet cpu' events hrun
    have hafter : cpu.RepAfter cpu' := by
      obtain ⟨handler, -, -, hhandler, -⟩ := exists_of_dispatch linkage hrun
      -- the handlers of prefixes and block operations are the only ones that see a pending prefix
      cases huses : handler.usesRep with
      | false => exact repAfter_of_not_usesRep hhandler huses hquiet hrun
      | true =>
        rcases (usesRep_iff hhandler).mp huses with ⟨noted, hnoted⟩ | ⟨op, hop⟩
        · exact repAfter_of_repPrefix hnoted hrun
        · exact repAfter_of_blockOp hop hrun
    exact ⟨hafter.pending, hafter.noted, hafter.waits⟩
  · intro hclaimed hnote hblock rep
    obtain ⟨handler, hhandler⟩ := hclaimed.exists_handler
    have huses : handler.usesRep = false := (not_usesRep_iff hhandler).mpr ⟨hnote, hblock⟩
    exact dispatch_of_not_usesRep hhandler huses linkage rep

/-- A processor in the middle of a repetition, with three elements to go, which are loaded from
zero bytes. -/
def loading : Cpu where
  registers := { ecx := 3, esi := 0x3000 }
  eip := 0x1000
  rep := some .rep
  memory := ({} : Memory).storeBytes 0x1000 [0xac]

/-- A processor about to carry out NOP. -/
def padded : Cpu where
  registers := {}
  eip := 0x1000
  memory := ({} : Memory).storeBytes 0x1000 [0x90]

theorem dispatch_rep_loading :
    let loaded := (standard.dispatch { emulators := Win32.libraries }).run loading
    let stepped := (standard.dispatch {}).run { padded with rep := some .rep }
    let plain := (standard.dispatch {}).run { padded with rep := none }
    (loaded.result = .ok () ∧ loaded.cpu.rep = some .rep ∧ loaded.cpu.eip = 0x1000) ∧
      stepped.result = plain.result ∧ stepped.cpu = plain.cpu := by
  have hopcode : loading.opcode = loadByte.opcode := by
    simp [loading, Cpu.opcode, Memory.storeBytes, BlockOp.opcode]
  have hcontinues : loading.Continues .rep := {
    block := ⟨loadByte, hopcode⟩
    pending := rfl
    count := by decide
    goesOn := fun hscan => absurd (hopcode.symm.trans hscan) (by decide) }
  obtain ⟨cpu', events, hrun⟩ : ∃ cpu' events,
      (standard.dispatch { emulators := Win32.libraries }).run loading =
        ⟨.ok (), cpu', events⟩ := by
    obtain ⟨done, hdone⟩ : ∃ done, loadByte.element? loading = .ok done := ⟨_, rfl⟩
    rw [dispatch_blockOp hopcode, if_neg (by decide), hdone]
    exact ⟨_, _, rfl⟩
  obtain ⟨hpending, -, hwaits⟩ :=
    (dispatch_rep { emulators := Win32.libraries } loading).1 Win32.libraries_keep_rep _ _ hrun
  have hnop : padded.opcode = 0x90 := by
    simp [padded, Cpu.opcode, Memory.storeBytes]
  have hclaimed : Claimed padded.opcode := by
    rw [hnop]
    exact ⟨.nop, by simp [standardHandlers], rfl⟩
  have hpadded := (dispatch_rep {} padded).2 hclaimed
    (fun kind => by rw [hnop]; cases kind <;> decide)
    (fun op => by rw [hnop]; cases op <;> decide) (some .rep)
  dsimp only
  rw [hrun]
  exact ⟨⟨rfl, (hpending .rep).mpr (.inr hcontinues), hwaits .rep hcontinues⟩, hpadded⟩

end InstructionSet

end Ia32
