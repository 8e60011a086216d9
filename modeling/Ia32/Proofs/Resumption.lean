import Ia32.Proofs.Run

/-!
# Runs that are cut and resumed

* `run_add`: a run may be cut at any budget, unless an abort or a fault has ended it.
* `execute_withBudget`: what a whole run makes of its budget, and of nothing else about it.
* `execute_resumed`: **a run that is cut and resumed is the run that is not cut**, in what it
  leaves, in what the fault handler is told, and in its account.
-/

namespace Ia32

variable {σ : Type}

/-- The reports that a fault handler was given, among some events. -/
def Event.reports (events : List Event) : List FaultReport :=
  events.filterMap fun
    | faultReported report => some report
    | _ => none

/-- The account of a run that came to an end, and was then resumed with the answer given. -/
def Summary.followedBy (summary : Summary) : Except RunError Summary → Except RunError Summary
  | .ok later => .ok
    { instructions := summary.instructions + later.instructions
      faults := summary.faults + later.faults
      stop := later.stop }
  | .error (.fault instructions fault) =>
    .error (.fault (summary.instructions + instructions) fault)
  | .error .notLoaded => .error .notLoaded

namespace Sandbox

/-- The sandbox with another budget. -/
def withBudget (s : Sandbox σ) (budget : UInt64) : Sandbox σ :=
  { s with config := { s.config with instructionBudget := budget } }

/-- The budget has no say in a turn. -/
theorem turn_withBudget (s : Sandbox σ) (budget : UInt64) : (s.withBudget budget).turn =
    { s.turn with sandbox := s.turn.sandbox.withBudget budget } := by
  have hsame : (s.withBudget budget).dispatch = s.dispatch := rfl
  rcases hdispatch : s.dispatch with ⟨fault | _, cpu, events⟩
  · rcases s.passed_or_raised fault with ⟨v, rfl, hpolicy⟩ | hraised
    · rw [turn_of_passed hdispatch hpolicy, turn_of_passed (hsame.trans hdispatch) hpolicy]
      rfl
    · cases hhandler : s.handler? with
      | none =>
        rw [turn_of_unhandled hdispatch hhandler hraised,
          turn_of_unhandled (hsame.trans hdispatch) hhandler hraised]
        rfl
      | some handler =>
        rcases hanswer : handler (fault.report s.cpu.eip s.cpu.opcode) s.controls
          with ⟨resolution, controls⟩
        rw [turn_of_handled hdispatch hhandler hraised hanswer,
          turn_of_handled (hsame.trans hdispatch) hhandler hraised hanswer]
        cases resolution <;> rfl
  · rw [turn_of_ok hdispatch, turn_of_ok (hsame.trans hdispatch)]
    rfl

theorem ne_aborted_of_stopReason? {s : Sandbox σ} {reason : StopReason}
    (h : s.stopReason? = some reason) : reason ≠ .aborted := by
  rcases stopReason?_eq_some_iff.mp h with ⟨-, rfl⟩ | ⟨-, -, rfl⟩ <;> decide

/-- A run may be cut at any budget, unless it has been aborted or has failed by then. -/
theorem runFor_add (n k : Nat) (p : Progress σ) : runFor (n + k) p =
    match runFor n p with
    | (.ok reason, p') => if reason = .aborted then (.ok reason, p') else runFor k p'
    | (.error fault, p') => (.error fault, p') := by
  induction n generalizing p with
  | zero =>
    have hne : p.sandbox.stopReason?.getD .budgetExhausted ≠ .aborted := by
      cases hstop : p.sandbox.stopReason? with
      | none => decide
      | some reason => exact ne_aborted_of_stopReason? hstop
    rw [Nat.zero_add, runFor]
    exact (if_neg hne).symm
  | succ n ih =>
    rw [Nat.succ_add]
    cases hgo : p.sandbox.stopReason? with
    | some reason =>
      have hne := ne_aborted_of_stopReason? hgo
      rw [runFor_of_stop _ hgo, runFor_of_stop _ hgo]
      -- what is left of the run stops for the same reason
      exact (runFor_of_stop k hgo).symm.trans (if_neg hne).symm
    | none =>
      cases hverdict : p.sandbox.turn.verdict with
      | next => rw [runFor_of_next _ hgo hverdict, runFor_of_next _ hgo hverdict, ih]
      | stop reason =>
        rw [runFor_of_abort _ hgo hverdict, runFor_of_abort _ hgo hverdict]
        exact (if_pos (aborted_of_stop hverdict).1).symm
      | fail fault => rw [runFor_of_fail _ hgo hverdict, runFor_of_fail _ hgo hverdict]

/-! ## The same run with another history -/

/-- A run goes alike from states of progress that are alike in all that a turn looks at. -/
theorem runFor_map {f : Progress σ → Progress σ}
    (hstop : ∀ p, (f p).sandbox.stopReason? = p.sandbox.stopReason?)
    (hverdict : ∀ p, (f p).sandbox.turn.verdict = p.sandbox.turn.verdict)
    (hadd : ∀ p, (f p).add (f p).sandbox.turn = f (p.add p.sandbox.turn))
    (n : Nat) (p : Progress σ) : runFor n (f p) = ((runFor n p).1, f (runFor n p).2) := by
  -- on the budget: a turn is taken alike from both states, and leads to states that are alike
  induction n generalizing p with
  | zero => rw [runFor, runFor, hstop]
  | succ n ih =>
    cases hgo : p.sandbox.stopReason? with
    | some reason => rw [runFor_of_stop _ hgo, runFor_of_stop _ ((hstop p).trans hgo)]
    | none =>
      have hgo' := (hstop p).trans hgo
      cases hv : p.sandbox.turn.verdict with
      | next =>
        rw [runFor_of_next _ hgo hv, runFor_of_next _ hgo' ((hverdict p).trans hv), hadd, ih]
      | stop reason =>
        rw [runFor_of_abort _ hgo hv, runFor_of_abort _ hgo' ((hverdict p).trans hv), hadd]
      | fail fault =>
        rw [runFor_of_fail _ hgo hv, runFor_of_fail _ hgo' ((hverdict p).trans hv), hadd]

end Sandbox

/-- The progress of two runs, one after the other, with the budget that they have in common. -/
def Progress.append (p : Progress σ) (budget : UInt64) (q : Progress σ) : Progress σ where
  sandbox := q.sandbox.withBudget budget
  instructions := p.instructions + q.instructions
  faults := p.faults + q.faults
  events := p.events ++ q.events

theorem Progress.append_add (p : Progress σ) (budget : UInt64) (q : Progress σ) :
    (p.append budget q).add (p.append budget q).sandbox.turn =
      p.append budget (q.add q.sandbox.turn) := by
  have hturn : (p.append budget q).sandbox.turn = _ := q.sandbox.turn_withBudget budget
  rw [hturn, add, add, append, append]
  cases q.sandbox.turn.faulted <;> simp [Nat.add_assoc, ← Array.toList_inj]

namespace Sandbox

/-- What has happened before a run, and what its budget is called, have no say in it. -/
theorem runFor_append (p : Progress σ) (budget : UInt64) (n : Nat) (q : Progress σ) :
    runFor n (p.append budget q) = ((runFor n q).1, p.append budget (runFor n q).2) := by
  refine runFor_map (f := p.append budget) (fun _ => rfl) (fun q => ?_) (p.append_add budget) n q
  change (q.sandbox.withBudget budget).turn.verdict = q.sandbox.turn.verdict
  rw [turn_withBudget]

/-- The run of at most `n` dispatches, with nothing before it. -/
def run (s : Sandbox σ) (n : Nat) : Except Fault StopReason × Progress σ :=
  runFor n { sandbox := s }

theorem runFor_eq_run (n : Nat) (p : Progress σ) : runFor n p =
    ((p.sandbox.run n).1, p.append p.sandbox.config.instructionBudget (p.sandbox.run n).2) := by
  have hp : p = p.append p.sandbox.config.instructionBudget { sandbox := p.sandbox } := by
    rw [Progress.append, Array.append_empty]
    rfl
  calc runFor n p
    _ = runFor n (p.append p.sandbox.config.instructionBudget { sandbox := p.sandbox }) :=
      congrArg (runFor n) hp
    _ = _ := runFor_append _ _ _ _

/-- A run that is cut goes on in the sandbox that the first part has left. -/
theorem run_add_of_resumed {s : Sandbox σ} {n : Nat} {reason : StopReason} {p : Progress σ}
    (h : s.run n = (.ok reason, p)) (hne : reason ≠ .aborted) (k : Nat) : s.run (n + k) =
      ((p.sandbox.run k).1,
        p.append p.sandbox.config.instructionBudget (p.sandbox.run k).2) := by
  rw [run] at h
  rw [run, runFor_add, h]
  exact (if_neg hne).trans (runFor_eq_run k p)

/-- A run that has been aborted or has failed when it is cut is over. -/
theorem run_add_of_ended {s : Sandbox σ} {n : Nat}
    (h : ∀ reason, (s.run n).1 = .ok reason → reason = .aborted) (k : Nat) :
    s.run (n + k) = s.run n := by
  rw [run] at h
  rw [run, runFor_add, run]
  rcases hrun : runFor n { sandbox := s } with ⟨fault | reason, p⟩
  · rfl
  · exact if_pos (h reason (by rw [hrun]))

/-! ## Accounts -/

theorem result_report_of_ok {outcome : Except Fault StopReason × Progress σ} {reason : StopReason}
    (h : outcome.1 = .ok reason) :
    (report outcome).result = .ok ⟨outcome.2.instructions, outcome.2.faults, reason⟩ := by
  rcases outcome with ⟨_, p⟩
  cases h
  rfl

theorem result_report_eq_ok {outcome : Except Fault StopReason × Progress σ} {summary : Summary}
    (h : (report outcome).result = .ok summary) :
    ∃ p, outcome = (.ok summary.stop, p) ∧ summary = ⟨p.instructions, p.faults, summary.stop⟩ := by
  rcases outcome with ⟨fault | reason, p⟩ <;> cases h
  exact ⟨p, rfl, rfl⟩

/-- The account of two runs, one after the other. -/
theorem result_report_append (p : Progress σ) (budget : UInt64) (reason : StopReason)
    (outcome : Except Fault StopReason × Progress σ) :
    (report (outcome.1, p.append budget outcome.2)).result =
      (Summary.mk p.instructions p.faults reason).followedBy (report outcome).result := by
  rcases outcome with ⟨fault | reason, q⟩ <;> rfl

theorem reports_report (outcome : Except Fault StopReason × Progress σ) :
    Event.reports (report outcome).events = Event.reports outcome.2.events.toList := by
  rcases outcome with ⟨fault | reason, p⟩
  · rfl
  · simp [report, Event.reports]

/-- A whole run under a budget, by the run of that many dispatches. -/
theorem execute_withBudget {s : Sandbox σ} (hloaded : s.image.isNone = false) (budget : UInt64) :
    (s.withBudget budget).execute.result = (report (s.run budget.toNat)).result ∧
      (s.withBudget budget).execute.sandbox =
        (s.run budget.toNat).2.sandbox.withBudget budget ∧
      Event.reports (s.withBudget budget).execute.events =
        Event.reports (s.run budget.toNat).2.events.toList := by
  have hstart : (s.withBudget budget).start =
      Progress.append { sandbox := s, events := #[.started s.cpu.eip budget] } budget
        { sandbox := s } := rfl
  have hexecute : (s.withBudget budget).execute =
      report (runFor budget.toNat (s.withBudget budget).start) := execute_eq_report hloaded
  rw [hexecute, hstart, runFor_append]
  rw [reports_report, sandbox_report, ← run]
  rcases s.run budget.toNat with ⟨fault | reason, p⟩
  · exact ⟨by simp [report, Progress.append], rfl, by simp [Progress.append, Event.reports]⟩
  · exact ⟨by simp [report, Progress.append], rfl, by simp [Progress.append, Event.reports]⟩

/-- **A run that is cut and resumed is the run that is not cut.** Unless the first part ends
with an abort or an error, resuming it with a second budget leaves the sandbox, halt request
and handler state included, that one run under both budgets leaves, tells the fault handler
the same, and the two accounts add up to the account of the one run. An abort or an error
ends the one run where it ends the first part. -/
theorem execute_resumed (s : Sandbox σ) {b₁ b₂ : UInt64}
    (hsum : b₁.toNat + b₂.toNat < UInt64.size) :
    let first := (s.withBudget b₁).execute
    let second := (first.sandbox.withBudget b₂).execute
    let whole := (s.withBudget (b₁ + b₂)).execute
    (∀ summary, first.result = .ok summary → summary.stop ≠ .aborted →
      whole.result = summary.followedBy second.result ∧
      whole.sandbox = second.sandbox.withBudget (b₁ + b₂) ∧
      Event.reports whole.events = Event.reports first.events ++ Event.reports second.events) ∧
    ((∀ summary, first.result = .ok summary → summary.stop = .aborted) →
      whole.result = first.result ∧
      whole.sandbox = first.sandbox.withBudget (b₁ + b₂) ∧
      Event.reports whole.events = Event.reports first.events) := by
  intro first second whole
  cases hloaded : s.image.isNone with
  | true =>
    -- with nothing loaded neither run gets to its first turn
    have hfirst : first = ⟨.error .notLoaded, s.withBudget b₁, []⟩ := execute_of_not_loaded hloaded
    have hwhole : whole = ⟨.error .notLoaded, s.withBudget (b₁ + b₂), []⟩ :=
      execute_of_not_loaded hloaded
    rw [hfirst, hwhole]
    exact ⟨fun _ h => (nomatch h), fun _ => ⟨rfl, rfl, rfl⟩⟩
  | false =>
    have hbudget : (b₁ + b₂).toNat = b₁.toNat + b₂.toNat := by
      rw [UInt64.toNat_add]
      exact Nat.mod_eq_of_lt hsum
    obtain ⟨hresult₁, hsandbox₁, hreports₁⟩ := execute_withBudget hloaded b₁
    obtain ⟨hresult, hsandbox, hreports⟩ := execute_withBudget hloaded (b₁ + b₂)
    rw [hbudget] at hresult hsandbox hreports
    refine ⟨fun summary hsummary hne => ?_, fun hended => ?_⟩
    · obtain ⟨p, hrun, hcounts⟩ := result_report_eq_ok (hresult₁.symm.trans hsummary)
      -- what the first part leaves is loaded, like the sandbox it started from
      have hloaded' : p.sandbox.image.isNone = false := by
        obtain ⟨cpu, controls, hframe⟩ := runFor_frame b₁.toNat { sandbox := s }
        rw [← run, hrun] at hframe
        rw [hframe]
        exact hloaded
      have hsecond : second = (p.sandbox.withBudget b₂).execute := by
        change (first.sandbox.withBudget b₂).execute = _
        rw [hsandbox₁, hrun]
        rfl
      obtain ⟨hresult₂, hsandbox₂, hreports₂⟩ := execute_withBudget hloaded' b₂
      rw [run_add_of_resumed hrun hne] at hresult hsandbox hreports
      rw [hrun] at hreports₁
      rw [hsecond]
      refine ⟨?_, ?_, ?_⟩
      · rw [hresult, hresult₂, result_report_append, ← hcounts]
      · rw [hsandbox, hsandbox₂]
        rfl
      · rw [hreports, hreports₁, hreports₂]
        simp [Progress.append, Event.reports]
    · have hrun : s.run (b₁.toNat + b₂.toNat) = s.run b₁.toNat := by
        refine run_add_of_ended (fun reason h => ?_) _
        exact hended _ (hresult₁.trans (result_report_of_ok h))
      rw [hrun] at hresult hsandbox hreports
      refine ⟨hresult.trans hresult₁.symm, ?_, hreports.trans hreports₁.symm⟩
      exact hsandbox.trans (congrArg (·.withBudget (b₁ + b₂)) hsandbox₁).symm

/-- A run of one dispatch on garbled code skips a byte. -/
theorem execute_garbled {eip : UInt32} (reports : List FaultReport)
    (heip : eip = 0x1000 ∨ eip = 0x1001) :
    (garbled 1 eip reports).execute.result = .ok ⟨1, 1, .budgetExhausted⟩ ∧
      (garbled 1 eip reports).execute.sandbox =
        garbled 1 (eip + 1) (reports ++ [garbledReport eip]) := by
  have hturn : (garbled 1 eip reports).start.sandbox.turn = _ := garbled_turn heip
  have hrun : runFor 1 (garbled 1 eip reports).start = _ :=
    runFor_of_next 0 rfl (by rw [hturn])
  have hexecute : (garbled 1 eip reports).execute =
      report (runFor 1 (garbled 1 eip reports).start) := execute_eq_report rfl
  rw [hexecute, hrun, hturn]
  exact ⟨rfl, rfl⟩

theorem execute_resumed_garbled :
    (1 : UInt64).toNat + (1 : UInt64).toNat < UInt64.size ∧
      (garbled 2 0x1000 []).execute.result = .ok ⟨2, 2, .budgetExhausted⟩ ∧
      (garbled 2 0x1000 []).execute.sandbox =
        garbled 2 0x1002 [garbledReport 0x1000, garbledReport 0x1001] := by
  have hsum : (1 : UInt64).toNat + (1 : UInt64).toNat < UInt64.size := by decide
  obtain ⟨hresult₁, hsandbox₁⟩ := @execute_garbled 0x1000 [] (.inl rfl)
  obtain ⟨hresult₂, hsandbox₂⟩ :=
    @execute_garbled 0x1001 [garbledReport 0x1000] (.inr rfl)
  obtain ⟨hresult, hsandbox, -⟩ :=
    (execute_resumed (garbled 1 0x1000 []) hsum).1 _ hresult₁ (by decide)
  have hsecond : ((garbled 1 0x1000 []).withBudget 1).execute.sandbox.withBudget 1 =
      garbled 1 0x1001 [garbledReport 0x1000] :=
    congrArg (·.withBudget 1) hsandbox₁
  rw [hsecond] at hresult hsandbox
  rw [hresult₂] at hresult
  rw [hsandbox₂] at hsandbox
  exact ⟨hsum, hresult, hsandbox⟩

end Sandbox

end Ia32
