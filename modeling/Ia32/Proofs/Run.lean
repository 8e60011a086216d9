import Ia32.Memory.Lemmas
import Ia32.Proofs.Dispatch
import Ia32.Sandbox.Run

/-!
# Runs of a sandbox

* `turn_frame`: a turn of a run changes the processor and the controls, and nothing else.
* `takes_turn`: the ways that a turn may take, by what its dispatch comes to.
* `runFor_of_stop`, `runFor_of_next`, `runFor_of_abort`, `runFor_of_fail`: a run by its first
  turn.
* `execute_invariant`: **what every turn preserves, a run preserves**, however it ends.
-/

namespace Ia32.Sandbox

variable {σ : Type}

/-- What follows a fault leaves all but the controls, the prefix and EIP as they are. -/
theorem resolve_frame (s : Sandbox σ) (fault : Fault) (eip : UInt32) (opcode : UInt8) :
    ∃ controls rep eip', (s.resolve fault eip opcode).sandbox =
      { s with controls, cpu := { s.cpu with rep, eip := eip' } } := by
  unfold resolve
  split
  · exact ⟨s.controls, s.cpu.rep, s.cpu.eip, rfl⟩
  · split
    · exact ⟨s.controls, s.cpu.rep, s.cpu.eip, rfl⟩
    · dsimp only
      split
      · exact ⟨_, s.cpu.rep, s.cpu.eip, rfl⟩
      · exact ⟨_, s.cpu.rep, s.cpu.eip, rfl⟩
      · exact ⟨_, none, eip + 1, rfl⟩

/-- A turn is one dispatch; after a fault the controls, the prefix and EIP may change. -/
theorem turn_frame (s : Sandbox σ) :
    ∃ controls rep eip, s.turn.sandbox =
      { s with controls, cpu := { s.dispatch.cpu with rep, eip } } := by
  unfold turn
  rcases s.dispatch with ⟨fault | _, cpu, events⟩
  · exact resolve_frame { s with cpu } fault s.cpu.eip s.cpu.opcode
  · exact ⟨s.controls, cpu.rep, cpu.eip, rfl⟩

/-! ## A turn by its dispatch -/

/-- A fault is passed over or it is not. -/
theorem passed_or_raised (s : Sandbox σ) (fault : Fault) :
    (∃ v, fault = .accessViolation v ∧ s.config.faultPolicy = .bestEffort) ∨
      (s.config.faultPolicy = .bestEffort → ∀ v, fault ≠ .accessViolation v) := by
  cases fault with
  | accessViolation v =>
    by_cases hpolicy : s.config.faultPolicy = .bestEffort
    · exact .inl ⟨v, rfl, hpolicy⟩
    · exact .inr fun h => absurd h hpolicy
  | unimplementedOpcode | unimplementedOperand | decode => exact .inr fun _ _ h => nomatch h

/-- The turn in which the fault handler is given `report` and answers with `resolution` and
`controls`, after a dispatch that has left the processor as `cpu`. -/
def answered (s : Sandbox σ) (report : FaultReport) (cpu : Cpu) (events : List Event)
    (resolution : Resolution) (controls : Controls σ) : Turn σ :=
  match resolution with
  | .abort => ⟨.stop .aborted, true, { s with cpu, controls }, events ++ [.faultReported report]⟩
  | .retry => ⟨.next, true, { s with cpu, controls },
      events ++ [.faultReported report, .retried report.address]⟩
  | .ignore => ⟨.next, true,
      { s with controls, cpu := { cpu with rep := none, eip := report.address + 1 } },
      events ++ [.faultReported report, .skipped report.opcode report.address]⟩

section Turn

variable {s : Sandbox σ} {cpu : Cpu} {events : List Event} {fault : Fault}

theorem turn_of_ok (h : s.dispatch = ⟨.ok (), cpu, events⟩) :
    s.turn = ⟨.next, false, { s with cpu }, events⟩ := by
  rw [turn, h]

/-- A fault that nobody handles and the policy does not pass over ends the run. -/
theorem turn_of_unhandled (h : s.dispatch = ⟨.error fault, cpu, events⟩)
    (hhandler : s.handler? = none)
    (hfatal : s.config.faultPolicy = .bestEffort → ∀ v, fault ≠ .accessViolation v) :
    s.turn = ⟨.fail fault, true, { s with cpu }, events ++ [.faultUnhandled fault]⟩ := by
  rw [turn, h]
  dsimp only
  unfold resolve
  split
  · rename_i v hpolicy
    exact absurd rfl (hfatal hpolicy v)
  · rw [hhandler]

/-- A refused store is passed over under `bestEffort`. -/
theorem turn_of_passed {v : AccessViolation}
    (h : s.dispatch = ⟨.error (.accessViolation v), cpu, events⟩)
    (hpolicy : s.config.faultPolicy = .bestEffort) :
    s.turn = ⟨.next, true, { s with cpu }, events ++ [.violationIgnored v s.cpu.eip]⟩ := by
  rw [turn, h]
  simp only [resolve, hpolicy]

/-- Any other fault goes to the fault handler if there is one, and its answer decides. -/
theorem turn_of_handled {handler : FaultHandler σ} {resolution : Resolution}
    {controls : Controls σ} (h : s.dispatch = ⟨.error fault, cpu, events⟩)
    (hhandler : s.handler? = some handler)
    (hfatal : s.config.faultPolicy = .bestEffort → ∀ v, fault ≠ .accessViolation v)
    (hanswer : handler (fault.report s.cpu.eip s.cpu.opcode) s.controls = (resolution, controls)) :
    s.turn = s.answered (fault.report s.cpu.eip s.cpu.opcode) cpu events resolution controls := by
  rw [turn, h]
  dsimp only
  unfold resolve
  split
  · rename_i v hpolicy
    exact absurd rfl (hfatal hpolicy v)
  · simp only [hhandler, hanswer, answered]
    cases resolution <;> rfl

end Turn

/-- The ways that a turn may take, each with what leads to it. -/
inductive Takes (s : Sandbox σ) : Turn σ → Prop where
  | succeeded {cpu events} (hdispatch : s.dispatch = ⟨.ok (), cpu, events⟩) :
    Takes s ⟨.next, false, { s with cpu }, events⟩
  | passed {v cpu events} (hdispatch : s.dispatch = ⟨.error (.accessViolation v), cpu, events⟩)
    (hpolicy : s.config.faultPolicy = .bestEffort) :
    Takes s ⟨.next, true, { s with cpu }, events ++ [.violationIgnored v s.cpu.eip]⟩
  | unhandled {fault cpu events} (hdispatch : s.dispatch = ⟨.error fault, cpu, events⟩)
    (hfatal : s.config.faultPolicy = .bestEffort → ∀ v, fault ≠ .accessViolation v)
    (hhandler : s.handler? = none) :
    Takes s ⟨.fail fault, true, { s with cpu }, events ++ [.faultUnhandled fault]⟩
  | handled {fault cpu events handler resolution controls}
    (hdispatch : s.dispatch = ⟨.error fault, cpu, events⟩)
    (hfatal : s.config.faultPolicy = .bestEffort → ∀ v, fault ≠ .accessViolation v)
    (hhandler : s.handler? = some handler)
    (hanswer : handler (fault.report s.cpu.eip s.cpu.opcode) s.controls = (resolution, controls)) :
    Takes s (s.answered (fault.report s.cpu.eip s.cpu.opcode) cpu events resolution controls)

/-- **Every turn takes one of these ways.** -/
theorem takes_turn (s : Sandbox σ) : s.Takes s.turn := by
  rcases hdispatch : s.dispatch with ⟨fault | _, cpu, events⟩
  · rcases s.passed_or_raised fault with ⟨v, rfl, hpolicy⟩ | hfatal
    · rw [turn_of_passed hdispatch hpolicy]
      exact .passed hdispatch hpolicy
    · cases hhandler : s.handler? with
      | none =>
        rw [turn_of_unhandled hdispatch hhandler hfatal]
        exact .unhandled hdispatch hfatal hhandler
      | some handler =>
        rcases hanswer : handler (fault.report s.cpu.eip s.cpu.opcode) s.controls
          with ⟨resolution, controls⟩
        rw [turn_of_handled hdispatch hhandler hfatal hanswer]
        exact .handled hdispatch hfatal hhandler hanswer
  · rw [turn_of_ok hdispatch]
    exact .succeeded hdispatch

/-- A turn stops the run only because the fault handler aborts it. -/
theorem aborted_of_stop {s : Sandbox σ} {reason : StopReason} (h : s.turn.verdict = .stop reason) :
    reason = .aborted ∧ ∃ fault handler, s.dispatch.result = .error fault ∧
      s.handler? = some handler ∧
      (handler (fault.report s.cpu.eip s.cpu.opcode) s.controls).1 = .abort := by
  have htakes := s.takes_turn
  generalize s.turn = turn at h htakes
  cases htakes with
  | @handled fault cpu events handler resolution controls hdispatch _ hhandler hanswer =>
    cases resolution <;> cases h
    exact ⟨rfl, fault, handler, by rw [hdispatch], hhandler, by rw [hanswer]⟩
  | _ => cases h

/-- A turn fails only with a fault that nobody handles. -/
theorem unhandled_of_fail {s : Sandbox σ} {fault : Fault} (h : s.turn.verdict = .fail fault) :
    s.handler? = none ∧ s.dispatch.result = .error fault ∧
      (s.config.faultPolicy = .bestEffort → ∀ v, fault ≠ .accessViolation v) := by
  have htakes := s.takes_turn
  generalize s.turn = turn at h htakes
  cases htakes with
  | unhandled hdispatch hfatal hhandler =>
    cases h
    exact ⟨hhandler, by rw [hdispatch], hfatal⟩
  | @handled _ _ _ _ resolution => cases resolution <;> cases h
  | _ => cases h

/-- A run goes on unless a halt is requested or the processor has halted. -/
theorem stopReason?_eq_none_iff {s : Sandbox σ} :
    s.stopReason? = none ↔ s.controls.haltRequested = false ∧ s.cpu.halted = false := by
  unfold stopReason?
  cases s.controls.haltRequested <;> cases s.cpu.halted <;> simp

/-- The request to halt comes first. -/
theorem stopReason?_eq_some_iff {s : Sandbox σ} {reason : StopReason} :
    s.stopReason? = some reason ↔
      (s.controls.haltRequested = true ∧ reason = .cancelled) ∨
        (s.controls.haltRequested = false ∧ s.cpu.halted = true ∧ reason = .halted) := by
  unfold stopReason?
  cases s.controls.haltRequested <;> cases s.cpu.halted <;> simp [eq_comm]

/-! ## The first turn of a run -/

section First

variable {p : Progress σ}

theorem runFor_of_stop {reason : StopReason} (budget : Nat)
    (hstop : p.sandbox.stopReason? = some reason) : runFor budget p = (.ok reason, p) := by
  cases budget <;> simp [runFor, hstop]

variable (budget : Nat) (hgo : p.sandbox.stopReason? = none)

include hgo

theorem runFor_of_next (h : p.sandbox.turn.verdict = .next) :
    runFor (budget + 1) p = runFor budget (p.add p.sandbox.turn) := by
  rw [runFor, hgo]
  simp only [h]

theorem runFor_of_abort {reason : StopReason} (h : p.sandbox.turn.verdict = .stop reason) :
    runFor (budget + 1) p = (.ok reason, p.add p.sandbox.turn) := by
  rw [runFor, hgo]
  simp only [h]

theorem runFor_of_fail {fault : Fault} (h : p.sandbox.turn.verdict = .fail fault) :
    runFor (budget + 1) p = (.error fault, p.add p.sandbox.turn) := by
  rw [runFor, hgo]
  simp only [h]

end First

/-! ## The whole run -/

theorem execute_eq_report {s : Sandbox σ} (hloaded : s.image.isNone = false) :
    s.execute = report (runFor s.config.instructionBudget.toNat s.start) := by
  rw [execute, if_neg (by simp [hloaded])]

theorem execute_of_not_loaded {s : Sandbox σ} (hloaded : s.image.isNone = true) :
    s.execute = ⟨.error .notLoaded, s, []⟩ := by
  rw [execute, if_pos hloaded]

theorem sandbox_report (outcome : Except Fault StopReason × Progress σ) :
    (report outcome).sandbox = outcome.2.sandbox := by
  rcases outcome with ⟨_ | _, p⟩ <;> rfl

/-! ## Invariants of runs -/

section Invariant

variable {P : Sandbox σ → Prop} (hturn : ∀ s, P s → P s.turn.sandbox)

include hturn

theorem runFor_invariant (budget : Nat) {p : Progress σ} (hp : P p.sandbox) :
    P (runFor budget p).2.sandbox := by
  induction budget generalizing p with
  | zero => exact hp
  | succ budget ih =>
    unfold runFor
    split
    · exact hp
    · -- whatever comes of the turn, its sandbox is the one that goes on or is left
      have hnext : P (p.add p.sandbox.turn).sandbox := hturn _ hp
      dsimp only
      split
      · exact ih hnext
      · exact hnext
      · exact hnext

/-- **What every turn preserves, a run preserves.** -/
theorem execute_invariant {s : Sandbox σ} (hs : P s) : P s.execute.sandbox := by
  cases hloaded : s.image.isNone with
  | true =>
    rw [execute_of_not_loaded hloaded]
    exact hs
  | false =>
    rw [execute_eq_report hloaded, sandbox_report]
    exact runFor_invariant hturn _ hs

end Invariant

/-- A run changes the processor and the controls, and nothing else. -/
theorem runFor_frame (budget : Nat) (p : Progress σ) :
    ∃ cpu controls, (runFor budget p).2.sandbox = { p.sandbox with cpu, controls } := by
  refine runFor_invariant (P := fun s => ∃ cpu controls, s = { p.sandbox with cpu, controls })
    (fun s hs => ?_) budget ⟨p.sandbox.cpu, p.sandbox.controls, rfl⟩
  obtain ⟨cpu, controls, rfl⟩ := hs
  obtain ⟨controls', rep, eip, hframe⟩ := turn_frame { p.sandbox with cpu, controls }
  exact ⟨_, _, hframe⟩

/-! ## Garbled code -/

/-- A sandbox at a byte of garbled code: no instruction starts with `0f`. Its fault handler
keeps the reports that it is given and skips the byte. -/
def garbled (budget : UInt64) (eip : UInt32) (reports : List FaultReport) :
    Sandbox (List FaultReport) :=
  { new { instructionBudget := budget } reports with
    cpu := { Cpu.withStackTop 0x80000 with
      eip, memory := (({} : Memory).store8 0x1000 0x0f).store8 0x1001 0x0f }
    handler? := some fun report controls =>
      (.ignore, { controls with handlerState := controls.handlerState ++ [report] })
    image := some ⟨0x1000, 0x1000, ∅⟩ }

/-- The report that `garbled` gives to its fault handler. -/
def garbledReport (eip : UInt32) : FaultReport :=
  (Fault.unimplementedOpcode 0x0f eip).report eip 0x0f

variable {budget : UInt64} {eip : UInt32} {reports : List FaultReport}
  (heip : eip = 0x1000 ∨ eip = 0x1001)

include heip

theorem garbled_opcode : (garbled budget eip reports).cpu.opcode = 0x0f := by
  rcases heip with rfl | rfl <;> simp [garbled, Cpu.opcode, Memory.read8_store8]

theorem garbled_dispatch : (garbled budget eip reports).dispatch =
    ⟨.error (.unimplementedOpcode 0x0f eip), (garbled budget eip reports).cpu, []⟩ := by
  have hopcode : (garbled budget eip reports).cpu.opcode = 0x0f := garbled_opcode heip
  have hunclaimed : InstructionSet.standard.handler? 0x0f = none := by
    rw [InstructionSet.standard_handler?_eq]
    rfl
  have hrun := InstructionSet.dispatch_run_of_none (garbled budget eip reports).linkage
    (hopcode ▸ hunclaimed)
  rw [hopcode] at hrun
  exact hrun

theorem garbled_turn : (garbled budget eip reports).turn =
    ⟨.next, true, garbled budget (eip + 1) (reports ++ [garbledReport eip]),
      [.faultReported (garbledReport eip), .skipped 0x0f eip]⟩ := by
  rw [turn_of_handled (garbled_dispatch heip) rfl (fun _ _ h => nomatch h) rfl, garbled_opcode heip]
  rfl

end Ia32.Sandbox
