import Ia32.Proofs.Atomicity
import Ia32.Proofs.Course
import Ia32.Proofs.Steps

/-!
# The account of a run

* `dispatch_retired`: a dispatch that succeeds retires one instruction, one that fails none.
* `afterTurns_retired`: the turns of a run retire as many instructions as do not fail.
* `execute_accounts`: **what the account of a run says is true of the run**, the reason it
  stopped for included.
-/

namespace Ia32

open Exec

variable {σ : Type}

/-- No instruction retires between the two states. -/
def Cpu.SameRetired (cpu cpu' : Cpu) : Prop := cpu'.retired = cpu.retired

instance : IsPreorder Cpu Cpu.SameRetired where
  refl _ := rfl
  trans _ _ _ h h' := h'.trans h

/-- No step of a handler counts instructions. -/
theorem permits_sameRetired : Permits Cpu.SameRetired where
  set _ _ _ := rfl
  jump _ _ := rfl
  write8 _ := rfl
  write32 _ := rfl
  frames _ _ := rfl
  rep _ _ := rfl
  compare _ _ _ := rfl
  direction _ _ := rfl
  halt _ := rfl

/-- A dispatch that succeeds retires one instruction, and one that fails none. -/
theorem InstructionSet.dispatch_retired {linkage : Linkage}
    (hlinkage : linkage.Within Cpu.SameRetired) (cpu : Cpu) :
    ((standard.dispatch linkage).run cpu).cpu.retired =
      cpu.retired + if ((standard.dispatch linkage).run cpu).result.isOk then 1 else 0 := by
  cases h : standard.handler? cpu.opcode with
  | none =>
    rw [dispatch_run_of_none linkage h]
    exact (UInt64.add_zero _).symm
  | some handler =>
    have hkept := standardHandlers_within permits_sameRetired hlinkage handler
      (mem_of_standard_handler? h) cpu.opcode (standard.primed cpu)
    rw [Cpu.SameRetired, retired_primed] at hkept
    rw [dispatch_run linkage h]
    rcases hrun : (handler.execute cpu.opcode linkage).run (standard.primed cpu)
      with ⟨fault | _, cpu', events⟩ <;> rw [hrun] at hkept
    · exact hkept.trans (UInt64.add_zero _).symm
    · exact congrArg (· + 1) hkept

namespace Sandbox

section Retired

variable {s : Sandbox σ} (hset : s.instructions = .standard)
  (hlinkage : s.linkage.Within Cpu.SameRetired)

include hset hlinkage

/-- What follows a fault does not count either. -/
theorem turn_retired : s.turn.sandbox.cpu.retired = s.cpu.retired + if s.fails then 0 else 1 := by
  obtain ⟨controls, rep, eip, hframe⟩ := s.turn_frame
  have hdispatch : s.dispatch = (InstructionSet.standard.dispatch s.linkage).run s.cpu := by
    rw [dispatch, hset]
  have hretired := InstructionSet.dispatch_retired hlinkage s.cpu
  rw [← hdispatch] at hretired
  rw [hframe, fails]
  cases hok : s.dispatch.result.isOk <;> simpa [hok] using hretired

/-- The turns of a run retire as many instructions as do not fail. -/
theorem afterTurns_retired (n : Nat) : (s.afterTurns n).cpu.retired =
    s.cpu.retired + UInt64.ofNat (n - s.failures n) := by
  induction n with
  | zero => exact (UInt64.add_zero _).symm
  | succ n ih =>
    have hle := s.failures_le n
    rw [← s.instructions_afterTurns n] at hset
    rw [← s.linkage_afterTurns n] at hlinkage
    have hturn := turn_retired hset hlinkage
    rw [afterTurns_succ, hturn, ih, failures_succ']
    -- a turn either retires an instruction or counts as a failure
    cases (s.afterTurns n).fails with
    | false =>
      have hcount : n + 1 - (s.failures n + 0) = n - s.failures n + 1 := by omega
      simp only [Bool.false_eq_true, if_false, hcount]
      rw [UInt64.ofNat_add, UInt64.add_assoc]
      rfl
    | true =>
      have hcount : n + 1 - (s.failures n + 1) = n - s.failures n := by omega
      simp only [if_true, hcount, UInt64.add_zero]

end Retired

/-! ## Steps -/

/-- The sandbox after `n` single steps. -/
def afterSteps (s : Sandbox σ) (n : Nat) : Sandbox σ := (fun s => s.step.sandbox)^[n] s

/-- A turn whose dispatch succeeds is a step. -/
theorem step_of_not_fails {s : Sandbox σ} (hloaded : s.image.isNone = false)
    (h : s.fails = false) : s.step.result = .ok () ∧ s.step.sandbox = s.turn.sandbox := by
  rcases hdispatch : s.dispatch with ⟨fault | _, cpu, events⟩
  · simp [fails, hdispatch, Except.isOk, Except.toBool] at h
  · rw [turn_of_ok hdispatch, step, if_neg (by simp [hloaded]), hdispatch]
    exact ⟨rfl, rfl⟩

theorem not_fails_of_failures {s : Sandbox σ} {n : Nat} (h : s.failures n = 0) :
    ∀ i < n, (s.afterTurns i).fails = false := by
  intro i hi
  simpa using List.countP_eq_zero.mp h i (List.mem_range.mpr hi)

/-- Turns of which none fails are steps. -/
theorem afterTurns_eq_afterSteps {s : Sandbox σ} (hloaded : s.image.isNone = false) {n : Nat}
    (h : ∀ i < n, (s.afterTurns i).fails = false) : s.afterTurns n = s.afterSteps n := by
  induction n with
  | zero => rfl
  | succ n ih =>
    have hstep := (step_of_not_fails (by rw [image_afterTurns, hloaded]) (h n n.lt_succ_self)).2
    rw [afterTurns_succ, ← hstep, ih fun i hi => h i (by omega), afterSteps, afterSteps,
      Function.iterate_succ_apply']

/-! ## Accounts -/

/-- What an account of the run of `s` says. -/
structure Accounts (s : Sandbox σ) (summary : Summary) : Prop where
  /-- Every instruction is a turn. -/
  sandbox : s.execute.sandbox = s.afterTurns summary.instructions
  faults : summary.faults = s.failures summary.instructions
  instructions_le : summary.instructions ≤ s.config.instructionBudget.toNat
  faults_le : summary.faults ≤ summary.instructions
  retired : s.execute.sandbox.cpu.retired =
    s.cpu.retired + UInt64.ofNat (summary.instructions - summary.faults)
  halted : summary.stop = .halted →
    s.execute.sandbox.cpu.halted = true ∧ s.execute.sandbox.controls.haltRequested = false
  budgetExhausted : summary.stop = .budgetExhausted →
    summary.instructions = s.config.instructionBudget.toNat ∧
      s.execute.sandbox.cpu.halted = false ∧ s.execute.sandbox.controls.haltRequested = false
  cancelled : summary.stop = .cancelled → s.execute.sandbox.controls.haltRequested = true
  /-- The last dispatch has failed, and the fault handler has answered to abort. -/
  aborted : summary.stop = .aborted → ∃ n fault handler,
    summary.instructions = n + 1 ∧ (s.afterTurns n).dispatch.result = .error fault ∧
      s.handler? = some handler ∧
      (handler (fault.report (s.afterTurns n).cpu.eip (s.afterTurns n).cpu.opcode)
        (s.afterTurns n).controls).1 = .abort
  /-- A run without faults is a run of single steps, and none of them is made from a halted
  processor. -/
  steps : summary.faults = 0 →
    s.execute.sandbox = s.afterSteps summary.instructions ∧
      ∀ i < summary.instructions,
        (s.afterSteps i).cpu.halted = false ∧ (s.afterSteps i).step.result = .ok ()

/-- The reason that a run stops for holds where it stops. -/
theorem Ending.stops {s : Sandbox σ} {budget n : Nat} {stop : StopReason}
    (h : s.Ending budget n (.ok stop)) :
    (stop = .halted → (s.afterTurns n).cpu.halted = true ∧
      (s.afterTurns n).controls.haltRequested = false) ∧
    (stop = .budgetExhausted → n = budget ∧ (s.afterTurns n).cpu.halted = false ∧
      (s.afterTurns n).controls.haltRequested = false) ∧
    (stop = .cancelled → (s.afterTurns n).controls.haltRequested = true) ∧
    (stop = .aborted → ∃ k, n = k + 1 ∧ (s.afterTurns k).turn.verdict = .stop .aborted) := by
  cases h with
  | stopped hnext hstop =>
    rcases stopReason?_eq_some_iff.mp hstop with ⟨hrequested, rfl⟩ | ⟨hrequested, hhalted, rfl⟩
    · simp [hrequested]
    · simp [hrequested, hhalted]
  | spent hnext hgo =>
    obtain ⟨hrequested, hhalted⟩ := stopReason?_eq_none_iff.mp hgo
    simp [hrequested, hhalted]
  | @aborted k _ hnext hstop =>
    obtain ⟨rfl, -⟩ := aborted_of_stop hstop
    simpa using hstop

variable {s : Sandbox σ} (hset : s.instructions = .standard)
  (hlinkage : s.linkage.Within Cpu.SameRetired)

include hset hlinkage

theorem Course.accounts {n : Nat} {stop : StopReason} (hloaded : s.image.isNone = false)
    (h : s.Course s.config.instructionBudget.toNat n (.ok stop))
    (hsandbox : s.execute.sandbox = s.afterTurns n) : s.Accounts ⟨n, s.failures n, stop⟩ := by
  obtain ⟨hhalted, hspent, hcancelled, haborted⟩ := h.ending.stops
  rw [← hsandbox] at hhalted hspent hcancelled
  refine ⟨hsandbox, rfl, h.le, s.failures_le n, ?_, hhalted, hspent, hcancelled, ?_, ?_⟩
  · rw [hsandbox]
    exact afterTurns_retired hset hlinkage n
  · intro hstop
    obtain ⟨k, hk, hverdict⟩ := haborted hstop
    obtain ⟨-, fault, handler, hfault, hhandler, hanswer⟩ := aborted_of_stop hverdict
    rw [handler?_afterTurns] at hhandler
    exact ⟨k, fault, handler, hk, hfault, hhandler, hanswer⟩
  · intro hnone
    -- a run without failures is a sequence of single steps
    have hfails := not_fails_of_failures hnone
    have hsame : ∀ i ≤ n, s.afterTurns i = s.afterSteps i := fun i hi =>
      afterTurns_eq_afterSteps hloaded fun j hj => hfails j (by omega)
    refine ⟨hsandbox.trans (hsame n (Nat.le_refl n)), fun i hi => ?_⟩
    rw [← hsame i (Nat.le_of_lt hi)]
    exact ⟨(stopReason?_eq_none_iff.mp (h.goesOn i hi)).2,
      (step_of_not_fails (by rw [image_afterTurns, hloaded]) (hfails i hi)).1⟩

/-- **The account of a run is true of the run.** Its counts are within the budget and those
of the turns, as many instructions have retired as have not failed, and the reason it gives
is one that holds in the end. A run that ends with a fault has no fault handler, and the
count it gives is that of its turns too. -/
theorem execute_accounts :
    (∀ summary, s.execute.result = .ok summary → s.Accounts summary) ∧
      ∀ count fault, s.execute.result = .error (.fault count fault) →
        1 ≤ count ∧ count ≤ s.config.instructionBudget.toNat ∧ s.handler? = none ∧
          s.execute.sandbox = s.afterTurns count ∧
          s.execute.sandbox.cpu.retired =
            s.cpu.retired + UInt64.ofNat (count - s.failures count) := by
  cases hloaded : s.image.isNone with
  | true =>
    rw [execute_of_not_loaded hloaded]
    exact ⟨fun _ h => (nomatch h), fun _ _ h => (nomatch h)⟩
  | false =>
    obtain ⟨n, result, hcourse, hsandbox, hresult⟩ := execute_course hloaded
    rw [hresult]
    refine ⟨fun summary h => ?_, fun count fault h => ?_⟩ <;> cases result <;> cases h
    · exact hcourse.accounts hset hlinkage hloaded hsandbox
    · obtain ⟨hhandler, hpos⟩ := hcourse.unhandled_of_error
      refine ⟨hpos, hcourse.le, hhandler, hsandbox, ?_⟩
      rw [hsandbox, afterTurns_retired hset hlinkage n]

omit hset hlinkage

/-- A sandbox at HLT, with a budget of one instruction. -/
def lastHalt : Sandbox Unit :=
  { new { instructionBudget := 1 } () with
    cpu := { Cpu.withStackTop 0x80000 with
      eip := 0x1000, memory := ({} : Memory).store8 0x1000 0xf4 }
    linkage := { emulators := Win32.libraries }
    image := some ⟨0x1000, 0x1000, ∅⟩ }

theorem lastHalt_dispatch : lastHalt.dispatch =
    ⟨.ok (), { lastHalt.cpu with eip := 0x1001, halted := true, retired := 1 },
      [.dispatched 0x1000 0xf4 "hlt", .halted 0x1000]⟩ := by
  have hopcode : lastHalt.cpu.opcode = 0xf4 := by simp [lastHalt, Cpu.opcode]
  have hhandler : InstructionSet.standard.handler? lastHalt.cpu.opcode = some .halt := by
    rw [hopcode, InstructionSet.standard_handler?_eq]
    rfl
  have hrun := InstructionSet.dispatch_run_dropRep lastHalt.linkage hhandler rfl
  rw [InstructionSet.preamble_of_some hhandler, InstructionSet.notes, hopcode] at hrun
  exact hrun

theorem execute_accounts_lastHalt :
    lastHalt.instructions = .standard ∧ lastHalt.linkage.Within Cpu.SameRetired ∧
      lastHalt.execute.result = .ok ⟨1, 0, .halted⟩ ∧
      lastHalt.execute.sandbox.cpu.halted = true ∧
      lastHalt.execute.sandbox.cpu.retired = 1 := by
  have hlinkage : lastHalt.linkage.Within Cpu.SameRetired :=
    Win32.libraries_within permits_sameRetired
  have hturn : lastHalt.start.sandbox.turn = _ := turn_of_ok lastHalt_dispatch
  have hrun : runFor 1 lastHalt.start = _ := runFor_of_next 0 rfl (by rw [hturn])
  have hexecute : lastHalt.execute = report (runFor 1 lastHalt.start) := execute_eq_report rfl
  have hresult : lastHalt.execute.result = .ok ⟨1, 0, .halted⟩ := by
    rw [hexecute, hrun, hturn]
    rfl
  have haccounts := (execute_accounts rfl hlinkage).1 _ hresult
  exact ⟨rfl, hlinkage, hresult, (haccounts.halted rfl).1, haccounts.retired⟩

end Sandbox

end Ia32
