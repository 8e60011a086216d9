import Ia32.Proofs.Run
import Mathlib.Logic.Function.Iterate

/-!
# The course of a run

A run is a number of turns, one after the other: turn `i`, counted from zero, starts from
`s.afterTurns i`, and the run ends in `s.afterTurns n` after `n` turns.

* `Course`: which turns a run makes, and how it ends.
* `runFor_course`: **every run has a course**, and its counts are those of its turns.
* `execute_course`: the same, of a whole run.
-/

namespace Ia32.Sandbox

variable {σ : Type}

/-- The sandbox after `n` turns, one after the other whatever their verdicts. -/
def afterTurns (s : Sandbox σ) (n : Nat) : Sandbox σ := (fun s => s.turn.sandbox)^[n] s

/-- Whether the next dispatch fails. -/
def fails (s : Sandbox σ) : Bool := !s.dispatch.result.isOk

/-- The number of dispatches that fail in the first `n` turns. -/
def failures (s : Sandbox σ) (n : Nat) : Nat :=
  (List.range n).countP fun i => (s.afterTurns i).fails

variable (s : Sandbox σ) (n : Nat)

@[simp] theorem afterTurns_zero : s.afterTurns 0 = s := rfl

theorem afterTurns_succ : s.afterTurns (n + 1) = (s.afterTurns n).turn.sandbox :=
  Function.iterate_succ_apply' _ n s

/-- Turns change the processor and the controls, and nothing else. -/
theorem afterTurns_frame : ∃ cpu controls, s.afterTurns n = { s with cpu, controls } := by
  induction n with
  | zero => exact ⟨s.cpu, s.controls, rfl⟩
  | succ n ih =>
    obtain ⟨cpu, controls, hn⟩ := ih
    obtain ⟨controls', rep, eip, hturn⟩ := (s.afterTurns n).turn_frame
    rw [afterTurns_succ, hturn, hn]
    exact ⟨_, _, rfl⟩

@[simp] theorem instructions_afterTurns : (s.afterTurns n).instructions = s.instructions := by
  obtain ⟨cpu, controls, hframe⟩ := s.afterTurns_frame n
  rw [hframe]

@[simp] theorem linkage_afterTurns : (s.afterTurns n).linkage = s.linkage := by
  obtain ⟨cpu, controls, hframe⟩ := s.afterTurns_frame n
  rw [hframe]

@[simp] theorem handler?_afterTurns : (s.afterTurns n).handler? = s.handler? := by
  obtain ⟨cpu, controls, hframe⟩ := s.afterTurns_frame n
  rw [hframe]

@[simp] theorem image_afterTurns : (s.afterTurns n).image = s.image := by
  obtain ⟨cpu, controls, hframe⟩ := s.afterTurns_frame n
  rw [hframe]

theorem faulted_turn : s.turn.faulted = s.fails := by
  unfold turn fails
  rcases s.dispatch with ⟨fault | _, cpu, events⟩
  · dsimp only
    unfold resolve
    split
    · rfl
    · split
      · rfl
      · dsimp only
        split <;> rfl
  · rfl

@[simp] theorem failures_zero : s.failures 0 = 0 := rfl

theorem failures_succ :
    s.failures (n + 1) = (if s.fails then 1 else 0) + s.turn.sandbox.failures n := by
  rw [failures, List.range_succ_eq_map, List.countP_cons, List.countP_map, Nat.add_comm]
  rfl

theorem failures_succ' :
    s.failures (n + 1) = s.failures n + if (s.afterTurns n).fails then 1 else 0 := by
  rw [failures, List.range_succ, List.countP_append, List.countP_singleton]
  rfl

theorem failures_le : s.failures n ≤ n := by
  calc s.failures n ≤ (List.range n).length := List.countP_le_length
    _ = n := List.length_range

/-! ## Courses -/

/-- How a run ends after `n` turns out of `budget`. -/
inductive Ending (s : Sandbox σ) (budget : Nat) : Nat → Except Fault StopReason → Prop where
  /-- There is a reason not to make another turn. -/
  | stopped {n reason} (hnext : ∀ i < n, (s.afterTurns i).turn.verdict = .next)
    (hstop : (s.afterTurns n).stopReason? = some reason) : Ending s budget n (.ok reason)
  /-- There is none but that the budget is spent. -/
  | spent (hnext : ∀ i < budget, (s.afterTurns i).turn.verdict = .next)
    (hgo : (s.afterTurns budget).stopReason? = none) : Ending s budget budget (.ok .budgetExhausted)
  /-- The last turn stops the run. -/
  | aborted {n reason} (hnext : ∀ i < n, (s.afterTurns i).turn.verdict = .next)
    (hstop : (s.afterTurns n).turn.verdict = .stop reason) : Ending s budget (n + 1) (.ok reason)
  /-- The last turn fails. -/
  | failed {n fault} (hnext : ∀ i < n, (s.afterTurns i).turn.verdict = .next)
    (hfail : (s.afterTurns n).turn.verdict = .fail fault) : Ending s budget (n + 1) (.error fault)

/-- A run of `n` turns out of `budget`, with its end. -/
structure Course (s : Sandbox σ) (budget n : Nat) (result : Except Fault StopReason) : Prop where
  le : n ≤ budget
  goesOn : ∀ i < n, (s.afterTurns i).stopReason? = none
  ending : s.Ending budget n result

variable {s n} {budget : Nat} {result : Except Fault StopReason}

/-- The course of a run is its first turn and the course of what follows. -/
theorem Course.cons (hgo : s.stopReason? = none) (hnext : s.turn.verdict = .next)
    (h : s.turn.sandbox.Course budget n result) : s.Course (budget + 1) (n + 1) result where
  le := Nat.succ_le_succ h.le
  goesOn := Nat.forall_lt_succ_left.mpr ⟨hgo, h.goesOn⟩
  ending := by
    obtain ⟨hle, hgoesOn, hending⟩ := h
    cases hending with
    | stopped hnext' hstop => exact .stopped (Nat.forall_lt_succ_left.mpr ⟨hnext, hnext'⟩) hstop
    | spent hnext' hgo => exact .spent (Nat.forall_lt_succ_left.mpr ⟨hnext, hnext'⟩) hgo
    | aborted hnext' hstop => exact .aborted (Nat.forall_lt_succ_left.mpr ⟨hnext, hnext'⟩) hstop
    | failed hnext' hfail => exact .failed (Nat.forall_lt_succ_left.mpr ⟨hnext, hnext'⟩) hfail

/-- The turns before the last one do not end the run. -/
theorem Ending.next (h : s.Ending budget n result) {i : Nat} (hi : i + 1 < n) :
    (s.afterTurns i).turn.verdict = .next := by
  cases h with
  | stopped hnext _ => exact hnext i (by omega)
  | spent hnext _ => exact hnext i (by omega)
  | aborted hnext _ => exact hnext i (by omega)
  | failed hnext _ => exact hnext i (by omega)

/-- A turn that ends the run is the last one. -/
theorem Ending.last (h : s.Ending budget n result) {i : Nat} (hi : i < n)
    (hends : (s.afterTurns i).turn.verdict ≠ .next) : i + 1 = n := by
  have hlast : ¬i + 1 < n := fun hlt => hends (h.next hlt)
  omega

/-- Only a run without a fault handler ends with a fault, and not before its first turn. -/
theorem Course.unhandled_of_error {fault : Fault} (h : s.Course budget n (.error fault)) :
    s.handler? = none ∧ 1 ≤ n := by
  cases h.ending with
  | @failed k _ _ hfail =>
    have hhandler := (unhandled_of_fail hfail).1
    rw [handler?_afterTurns] at hhandler
    exact ⟨hhandler, Nat.succ_le_succ k.zero_le⟩

theorem faults_add (p : Progress σ) : (p.add p.sandbox.turn).faults =
    p.faults + if p.sandbox.fails then 1 else 0 := by
  rw [← faulted_turn, Progress.add]
  cases p.sandbox.turn.faulted <;> rfl

/-- **Every run has a course**, and it has counted the turns and the failures of it. -/
theorem runFor_course (budget : Nat) (p : Progress σ) :
    ∃ n, p.sandbox.Course budget n (runFor budget p).1 ∧
      (runFor budget p).2.sandbox = p.sandbox.afterTurns n ∧
      (runFor budget p).2.instructions = p.instructions + n ∧
      (runFor budget p).2.faults = p.faults + p.sandbox.failures n := by
  have hnone {P : Nat → Prop} : ∀ i < 0, P i := fun i hi => absurd hi (Nat.not_lt_zero i)
  induction budget generalizing p with
  | zero =>
    refine ⟨0, ⟨Nat.le_refl 0, hnone, ?_⟩, rfl, rfl, rfl⟩
    rw [runFor]
    cases hgo : p.sandbox.stopReason? with
    | none => exact .spent hnone hgo
    | some reason => exact .stopped hnone hgo
  | succ budget ih =>
    cases hgo : p.sandbox.stopReason? with
    | some reason =>
      rw [runFor_of_stop _ hgo]
      exact ⟨0, ⟨Nat.zero_le _, hnone, .stopped hnone hgo⟩, rfl, rfl, rfl⟩
    | none =>
      have hfirst : ∀ i < 1, (p.sandbox.afterTurns i).stopReason? = none :=
        Nat.forall_lt_succ_left.mpr ⟨hgo, hnone⟩
      have hone : p.faults + p.sandbox.failures 1 = (p.add p.sandbox.turn).faults := by
        rw [failures_succ, failures_zero, faults_add, Nat.add_zero]
      cases hverdict : p.sandbox.turn.verdict with
      | next =>
        -- what is left of the run starts after this turn, so its turns come one later
        obtain ⟨n, hcourse, hsandbox, hinstructions, hfaults⟩ := ih (p.add p.sandbox.turn)
        rw [runFor_of_next budget hgo hverdict]
        refine ⟨n + 1, hcourse.cons hgo hverdict, hsandbox, ?_, ?_⟩
        · rw [hinstructions]
          exact Nat.add_right_comm _ _ _
        · rw [hfaults, faults_add, failures_succ, Nat.add_assoc]
          rfl
      | stop reason =>
        rw [runFor_of_abort budget hgo hverdict]
        exact ⟨1, ⟨by omega, hfirst, .aborted hnone hverdict⟩, rfl, rfl, hone.symm⟩
      | fail fault =>
        rw [runFor_of_fail budget hgo hverdict]
        exact ⟨1, ⟨by omega, hfirst, .failed hnone hverdict⟩, rfl, rfl, hone.symm⟩

/-- **A whole run has a course**, and its answer gives the counts of it. -/
theorem execute_course (hloaded : s.image.isNone = false) :
    ∃ n result, s.Course s.config.instructionBudget.toNat n result ∧
      s.execute.sandbox = s.afterTurns n ∧
      s.execute.result =
        match result with
        | .ok stop => .ok ⟨n, s.failures n, stop⟩
        | .error fault => .error (.fault n fault) := by
  obtain ⟨n, hcourse, hsandbox, hinstructions, hfaults⟩ :=
    runFor_course s.config.instructionBudget.toNat s.start
  have hn : (runFor s.config.instructionBudget.toNat s.start).2.instructions = n :=
    hinstructions.trans (Nat.zero_add n)
  have hf : (runFor s.config.instructionBudget.toNat s.start).2.faults = s.failures n :=
    hfaults.trans (Nat.zero_add _)
  refine ⟨n, _, hcourse, ?_, ?_⟩
  · rw [execute_eq_report hloaded, sandbox_report, hsandbox]
    rfl
  · rw [execute_eq_report hloaded]
    rcases hrun : runFor s.config.instructionBudget.toNat s.start with ⟨fault | stop, p⟩ <;>
      simp only [hrun] at hn hf
    · rw [report, hn]
    · rw [report, hn, hf]

end Ia32.Sandbox
