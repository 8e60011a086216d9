import Ia32.Proofs.Atomicity
import Ia32.Proofs.Run

/-!
# The fault policy

Two runs of one sandbox, one under `FaultPolicy.strict` and one under
`FaultPolicy.bestEffort`, without a fault handler.

* `runFor_of_stuck`: a refused store that is passed over is refused again at every further
  dispatch, and all that the run does from there on is to count.
* `runFor_withPolicy`: the runs are the same up to the first refused store, by induction on
  the budget.
* `execute_policy`: **the policy matters only from the first refused store on.**
-/

namespace Ia32

variable {σ : Type}

namespace Sandbox

/-- The sandbox under another fault policy. -/
def withPolicy (s : Sandbox σ) (policy : FaultPolicy) : Sandbox σ :=
  { s with config := { s.config with faultPolicy := policy } }

@[simp] theorem dispatch_withPolicy (s : Sandbox σ) (policy : FaultPolicy) :
    (s.withPolicy policy).dispatch = s.dispatch := rfl

@[simp] theorem stopReason?_withPolicy (s : Sandbox σ) (policy : FaultPolicy) :
    (s.withPolicy policy).stopReason? = s.stopReason? := rfl

/-! ## A run that is stuck -/

/-- The next instruction is a refused store that leaves the sandbox as it is, and it is
passed over. -/
structure Stuck (s : Sandbox σ) : Prop where
  policy : s.config.faultPolicy = .bestEffort
  goesOn : s.stopReason? = none
  refused : ∃ v events, s.dispatch = ⟨.error (.accessViolation v), s.cpu, events⟩

/-- **A stuck run spends its budget on the spot**, with one fault for every instruction. -/
theorem runFor_of_stuck (budget : Nat) {p : Progress σ} (h : p.sandbox.Stuck) :
    ∃ events, runFor budget p = (.ok .budgetExhausted,
      ⟨p.sandbox, p.instructions + budget, p.faults + budget, events⟩) := by
  induction budget generalizing p with
  | zero =>
    refine ⟨p.events, ?_⟩
    rw [runFor, h.goesOn]
    rfl
  | succ budget ih =>
    obtain ⟨v, noted, hrefused⟩ := h.refused
    have hturn := turn_of_passed hrefused h.policy
    -- the turn leaves the sandbox as it is, so the run is stuck after it too
    have hstuck : (p.add p.sandbox.turn).sandbox.Stuck := by
      rw [hturn]
      exact h
    obtain ⟨events, hrun⟩ := ih hstuck
    refine ⟨events, ?_⟩
    rw [runFor_of_next budget h.goesOn (by rw [hturn]), hrun, hturn]
    simp [Progress.add, Nat.add_assoc, Nat.add_comm 1 budget]

theorem stopReason?_of_halted {s : Sandbox σ} {cpu : Cpu} (h : cpu.halted = s.cpu.halted) :
    ({ s with cpu } : Sandbox σ).stopReason? = s.stopReason? := by
  simp only [stopReason?, h]

/-- After a refused store the sandbox is stuck, because failing instructions are atomic. -/
theorem stuck_of_violation {s : Sandbox σ} {v : AccessViolation} {cpu : Cpu} {events : List Event}
    (hset : s.instructions = .standard) (hgo : s.stopReason? = none)
    (h : s.dispatch = ⟨.error (.accessViolation v), cpu, events⟩) :
    (({ s with cpu } : Sandbox σ).withPolicy .bestEffort).Stuck := by
  rw [dispatch, hset] at h
  have hfails : ((InstructionSet.standard.dispatch s.linkage).run s.cpu).result =
      .error (.accessViolation v) := by rw [h]
  have hcpu : cpu = InstructionSet.standard.primed s.cpu := by
    rw [InstructionSet.dispatch_error hfails s.linkage] at h
    cases h
    rfl
  subst hcpu
  refine ⟨rfl, ?_, v, InstructionSet.standard.preamble (InstructionSet.standard.primed s.cpu), ?_⟩
  · rw [stopReason?_withPolicy, stopReason?_of_halted, hgo]
    rw [InstructionSet.halted_primed]
  · rw [dispatch_withPolicy, dispatch]
    dsimp only [withPolicy]
    rw [hset, InstructionSet.dispatch_error_again hfails]

end Sandbox

/-! ## Two runs -/

/-- The run so far, under another fault policy. -/
def Progress.withPolicy (p : Progress σ) (policy : FaultPolicy) : Progress σ :=
  { p with sandbox := p.sandbox.withPolicy policy }

namespace Sandbox

/-- A sandbox with the instruction set of this library, in which every fault ends a run. -/
structure Unforgiving (s : Sandbox σ) : Prop where
  standard : s.instructions = .standard
  unhandled : s.handler? = none
  strict : s.config.faultPolicy = .strict

/-- The two runs from `p`, under `strict` and under `bestEffort`. -/
structure Alike (budget : Nat) (p : Progress σ) : Prop where
  /-- They end alike if no refused store has ended the first. -/
  same : (∀ v, (runFor budget p).1 ≠ .error (.accessViolation v)) →
    runFor budget (p.withPolicy .bestEffort) =
      ((runFor budget p).1, (runFor budget p).2.withPolicy .bestEffort)
  /-- Otherwise the second ends in the same place: the refused store counts as one fault
  there, and so does every dispatch that is left. -/
  passed : ∀ v p', runFor budget p = (.error (.accessViolation v), p') →
    p.instructions < p'.instructions ∧ p'.instructions ≤ p.instructions + budget ∧
      ∃ events, runFor budget (p.withPolicy .bestEffort) = (.ok .budgetExhausted,
        ⟨p'.sandbox.withPolicy .bestEffort, p.instructions + budget,
          p.faults + 1 + (p.instructions + budget - p'.instructions), events⟩)

variable {p : Progress σ}

theorem alike_of_stop {reason : StopReason} (budget : Nat)
    (hstop : p.sandbox.stopReason? = some reason) : Alike budget p where
  same _ := by
    have hstop' : (p.withPolicy .bestEffort).sandbox.stopReason? = some reason := hstop
    rw [runFor_of_stop budget hstop, runFor_of_stop budget hstop']
  passed v p' h := by
    rw [runFor_of_stop budget hstop] at h
    cases h

/-- A dispatch that fails ends the run under `strict`; under `bestEffort` the run is stuck
from there on if a store was refused. -/
theorem alike_of_fault {fault : Fault} {cpu : Cpu} {events : List Event} (budget : Nat)
    (h : p.sandbox.Unforgiving) (hgo : p.sandbox.stopReason? = none)
    (hdispatch : p.sandbox.dispatch = ⟨.error fault, cpu, events⟩) : Alike (budget + 1) p := by
  have hgo' : (p.withPolicy .bestEffort).sandbox.stopReason? = none := hgo
  have hdispatch' : (p.withPolicy .bestEffort).sandbox.dispatch = ⟨.error fault, cpu, events⟩ :=
    hdispatch
  have hturn := turn_of_unhandled hdispatch h.unhandled (by simp [h.strict])
  have hrun := runFor_of_fail budget hgo (by rw [hturn])
  constructor
  · intro hfault
    rw [hrun] at hfault
    have hturn' := turn_of_unhandled hdispatch' h.unhandled fun _ v hv => hfault v (by rw [hv])
    rw [hrun, runFor_of_fail budget hgo' (by rw [hturn']), hturn, hturn']
    rfl
  -- the first run ends here with a refused store; the second one passes over it and is stuck
  · intro v p' heq
    rw [hrun] at heq
    cases heq
    have hturn' := turn_of_passed hdispatch' rfl
    have hstuck := stuck_of_violation h.standard hgo hdispatch
    obtain ⟨events', hrun'⟩ := runFor_of_stuck budget
      (p := (p.withPolicy .bestEffort).add (p.withPolicy .bestEffort).sandbox.turn)
      (by rw [hturn']; exact hstuck)
    refine ⟨Nat.lt_succ_self _, by simp [Progress.add], events', ?_⟩
    rw [runFor_of_next budget hgo' (by rw [hturn']), hrun', hturn, hturn']
    simp [Progress.add, Progress.withPolicy, withPolicy]
    omega

theorem alike_of_ok {cpu : Cpu} {events : List Event} {budget : Nat}
    (hgo : p.sandbox.stopReason? = none) (hdispatch : p.sandbox.dispatch = ⟨.ok (), cpu, events⟩)
    (h : Alike budget (p.add p.sandbox.turn)) : Alike (budget + 1) p := by
  have hgo' : (p.withPolicy .bestEffort).sandbox.stopReason? = none := hgo
  have hturn := turn_of_ok hdispatch
  have hturn' := turn_of_ok (s := (p.withPolicy .bestEffort).sandbox) hdispatch
  have hrun := runFor_of_next budget hgo (by rw [hturn])
  have hrun' := runFor_of_next budget hgo' (by rw [hturn'])
  -- the turn is the same under both policies
  have hadd : (p.withPolicy .bestEffort).add (p.withPolicy .bestEffort).sandbox.turn =
      (p.add p.sandbox.turn).withPolicy .bestEffort := by
    rw [hturn, hturn']
    rfl
  constructor
  · intro hfault
    rw [hrun] at hfault ⊢
    rw [hrun', hadd, h.same hfault]
  · intro v p' heq
    rw [hrun] at heq
    obtain ⟨hlt, hle, events', hpassed⟩ := h.passed v p' heq
    have hinstructions : (p.add p.sandbox.turn).instructions = p.instructions + 1 := rfl
    have hfaults : (p.add p.sandbox.turn).faults = p.faults := by
      rw [hturn]
      rfl
    rw [hinstructions] at hlt hle hpassed
    rw [hfaults] at hpassed
    have hbudget : p.instructions + 1 + budget = p.instructions + (budget + 1) := by omega
    rw [hbudget] at hle hpassed
    refine ⟨by omega, hle, events', ?_⟩
    rw [hrun', hadd, hpassed]

/-- **The runs under the two policies are the same up to the first refused store**, and from
there on the one under `bestEffort` stays where the other one ended. -/
theorem runFor_withPolicy (budget : Nat) (h : p.sandbox.Unforgiving) : Alike budget p := by
  induction budget generalizing p with
  | zero => exact ⟨fun _ => rfl, fun v p' heq => by simp [runFor] at heq⟩
  | succ budget ih =>
    cases hgo : p.sandbox.stopReason? with
    | some reason => exact alike_of_stop _ hgo
    | none =>
      -- a dispatch that fails ends the first run, and after any other one the runs go on alike
      rcases hdispatch : p.sandbox.dispatch with ⟨fault | _, cpu, events⟩
      · exact alike_of_fault budget h hgo hdispatch
      · have hnext : (p.add p.sandbox.turn).sandbox.Unforgiving := by
          rw [turn_of_ok hdispatch]
          exact ⟨h.standard, h.unhandled, h.strict⟩
        exact alike_of_ok hgo hdispatch (ih hnext)

theorem report_withPolicy (result : Except Fault StopReason) (p : Progress σ)
    (policy : FaultPolicy) : report (result, p.withPolicy policy) =
      { report (result, p) with sandbox := (report (result, p)).sandbox.withPolicy policy } := by
  cases result <;> rfl

/-- **The policy matters only from the first refused store on.** Without a fault handler, a
run under `strict` that ends well, or with a fault that is not a refused store, is the run
under `bestEffort`, summary or error, machine and events. If a refused store ends it at its
`k`-th dispatch, the run under `bestEffort` spends its whole budget in the same state, with a
fault for that dispatch and for each one after it. -/
theorem execute_policy {s : Sandbox σ} (hset : s.instructions = .standard)
    (hhandler : s.handler? = none) :
    let strict := (s.withPolicy .strict).execute
    let bestEffort := (s.withPolicy .bestEffort).execute
    let budget := s.config.instructionBudget.toNat
    (∀ summary, strict.result = .ok summary →
      bestEffort = { strict with sandbox := strict.sandbox.withPolicy .bestEffort }) ∧
    (∀ k fault, strict.result = .error (.fault k fault) → (∀ v, fault ≠ .accessViolation v) →
      bestEffort = { strict with sandbox := strict.sandbox.withPolicy .bestEffort }) ∧
    (∀ k v, strict.result = .error (.fault k (.accessViolation v)) →
      0 < k ∧ k ≤ budget ∧
        bestEffort.result = .ok ⟨budget, budget - k + 1, .budgetExhausted⟩ ∧
        bestEffort.sandbox = strict.sandbox.withPolicy .bestEffort) := by
  intro strict bestEffort budget
  cases hloaded : s.image.isNone with
  | true =>
    -- with nothing loaded neither run gets to its first turn
    have hstrict : strict = ⟨.error .notLoaded, s.withPolicy .strict, []⟩ :=
      execute_of_not_loaded hloaded
    rw [hstrict]
    refine ⟨fun _ h => ?_, fun _ _ h => ?_, fun _ _ h => ?_⟩ <;> cases h
  | false =>
    have halike : Alike budget (s.withPolicy .strict).start :=
      runFor_withPolicy budget ⟨hset, hhandler, rfl⟩
    have hstrict : strict = report (runFor budget (s.withPolicy .strict).start) :=
      execute_eq_report hloaded
    have hbest : bestEffort =
        report (runFor budget ((s.withPolicy .strict).start.withPolicy .bestEffort)) :=
      execute_eq_report hloaded
    have hsame (h : ∀ v, (runFor budget (s.withPolicy .strict).start).1 ≠
        .error (.accessViolation v)) :
        bestEffort = { strict with sandbox := strict.sandbox.withPolicy .bestEffort } := by
      rw [hbest, halike.same h, report_withPolicy, hstrict]
    rcases hrun : runFor budget (s.withPolicy .strict).start with ⟨fault | stop, p⟩
    · rw [hrun] at hsame hstrict
      refine ⟨fun summary h => ?_, fun k fault' h hfault => ?_, fun k v h => ?_⟩ <;>
        rw [hstrict] at h <;> cases h
      · exact hsame fun v heq => hfault v (by cases heq; rfl)
      · obtain ⟨hlt, hle, events, hpassed⟩ := halike.passed v p hrun
        have hinstructions : (s.withPolicy .strict).start.instructions = 0 := rfl
        have hfaults : (s.withPolicy .strict).start.faults = 0 := rfl
        -- both counts start from zero
        rw [hinstructions, Nat.zero_add] at hpassed hle
        rw [hfaults, Nat.zero_add, Nat.add_comm 1] at hpassed
        rw [hbest, hpassed, hstrict]
        exact ⟨hlt, hle, rfl, rfl⟩
    · rw [hrun] at hsame hstrict
      refine ⟨fun summary _ => hsame fun v heq => ?_, fun k fault' h => ?_, fun k v h => ?_⟩
      · cases heq
      · rw [hstrict] at h
        cases h
      · rw [hstrict] at h
        cases h

/-- A sandbox whose first instruction is a call that cannot push its return address. -/
def blocked : Sandbox Unit :=
  { new { instructionBudget := 5 } () with
    cpu := InstructionSet.blockedCall
    linkage := InstructionSet.exitLinkage
    image := some ⟨0x1000, 0x1000, ∅⟩ }

theorem execute_policy_blocked :
    (blocked.withPolicy .strict).execute.result =
        .error (.fault 1 (.accessViolation ⟨0x7fffc, .readOnly⟩)) ∧
      (blocked.withPolicy .bestEffort).execute.result = .ok ⟨5, 5, .budgetExhausted⟩ := by
  have hdispatch : (blocked.withPolicy .strict).start.sandbox.dispatch = _ :=
    InstructionSet.dispatch_error InstructionSet.blockedCall_refused InstructionSet.exitLinkage
  have hturn := turn_of_unhandled hdispatch rfl (fun h => nomatch h)
  have hrun : runFor (4 + 1) (blocked.withPolicy .strict).start = _ :=
    runFor_of_fail 4 rfl (by rw [hturn])
  have hstrict : (blocked.withPolicy .strict).execute.result =
      .error (.fault 1 (.accessViolation ⟨0x7fffc, .readOnly⟩)) := by
    rw [execute_eq_report rfl]
    change (report (runFor (4 + 1) (blocked.withPolicy .strict).start)).result = _
    rw [hrun]
    rfl
  exact ⟨hstrict, ((execute_policy (s := blocked) rfl rfl).2.2 1 _ hstrict).2.2.1⟩

end Sandbox

end Ia32
