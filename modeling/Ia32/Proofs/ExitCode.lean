import Ia32.CommandLine.Report
import Ia32.Proofs.Accounting
import Ia32.Proofs.FaultRouting
import Ia32.Proofs.LoadedSandbox

/-!
# What the runner says of a run

The runner installs no fault handler and requests no halt, so that a run of it stops because the
program has halted or the budget is spent, or fails with a fault. A failing instruction leaves EIP
at itself, and the runner prints the state that it was carried out in.

* `Unattended.turn`, `Unattended.afterTurns`: nobody comes to have a say in a run.
* `Unattended.execute_cases`: how such a run ends.
* `run_reports`: **the exit code and the texts of the runner**, once an image has been loaded,
  whatever reads the arguments, the configuration and the image.
-/

namespace Ia32

namespace Sandbox

variable {σ : Type} {s : Sandbox σ}

/-- Nobody but the program has a say in a run: there is no fault handler, and no halt is
requested. -/
structure Unattended (s : Sandbox σ) : Prop where
  handler? : s.handler? = none
  notRequested : s.controls.haltRequested = false

namespace Unattended

variable (h : s.Unattended)

include h

theorem turn : s.turn.sandbox.Unattended := by
  have htakes := s.takes_turn
  generalize s.turn = turn at htakes ⊢
  cases htakes with
  | succeeded | passed | unhandled => exact ⟨h.handler?, h.notRequested⟩
  | handled _ _ hhandler => cases h.handler?.symm.trans hhandler

theorem afterTurns (n : Nat) : (s.afterTurns n).Unattended := by
  induction n with
  | zero => exact h
  | succ n ih =>
    rw [afterTurns_succ]
    exact ih.turn

/-- The run stops because the program has halted or the budget is spent, or it fails with the
fault of its last dispatch. -/
theorem ending_cases {budget n : Nat} {result : Except Fault StopReason}
    (hending : s.Ending budget n result) :
    (∃ stop, result = .ok stop ∧ (stop = .halted ∨ stop = .budgetExhausted)) ∨
      ∃ k fault, n = k + 1 ∧ result = .error fault ∧
        (s.afterTurns k).turn.verdict = .fail fault := by
  cases hending with
  | stopped _ hstop =>
    rcases stopReason?_eq_some_iff.mp hstop with ⟨hrequested, -⟩ | ⟨-, -, rfl⟩
    · cases (h.afterTurns n).notRequested.symm.trans hrequested
    · exact .inl ⟨_, rfl, .inl rfl⟩
  | spent _ _ => exact .inl ⟨_, rfl, .inr rfl⟩
  | @aborted k _ _ hstop =>
    obtain ⟨-, fault, handler, -, hhandler, -⟩ := aborted_of_stop hstop
    cases (h.afterTurns k).handler?.symm.trans hhandler
  | @failed k fault _ hfail => exact .inr ⟨k, fault, rfl, rfl, hfail⟩

variable (hset : s.instructions = .standard)

include hset

/-- A turn that fails leaves the processor as it was, except that a prefix may be gone. -/
theorem turn_of_fail {fault : Fault} (hfail : s.turn.verdict = .fail fault) :
    s.dispatch.result = .error fault ∧
      s.turn.sandbox.cpu = { s.cpu with rep := InstructionSet.standard.keptRep s.cpu } := by
  obtain ⟨-, hresult, hfatal⟩ := unhandled_of_fail hfail
  have hraised := raised?_eq_some_iff.mpr ⟨hresult, hfatal⟩
  rw [turn_of_unhandled (dispatch_of_raised hraised) h.handler? hfatal]
  exact ⟨hresult, dispatch_cpu_of_error hset hresult⟩

/-- **How a run ends that nobody has a say in.** If it fails at its turn `n`, counted from zero,
the state in the end is that of before this turn, except that a prefix may be gone. -/
theorem execute_cases (hloaded : s.image.isNone = false) :
    (∃ summary, s.execute.result = .ok summary ∧
      (summary.stop = .halted ∨ summary.stop = .budgetExhausted)) ∨
    ∃ n fault, s.execute.result = .error (.fault (n + 1) fault) ∧
      (s.afterTurns n).dispatch.result = .error fault ∧
      s.execute.sandbox.cpu = { (s.afterTurns n).cpu with
        rep := InstructionSet.standard.keptRep (s.afterTurns n).cpu } := by
  obtain ⟨n, result, hcourse, hsandbox, hresult⟩ := execute_course hloaded
  rcases h.ending_cases hcourse.ending with ⟨stop, rfl, hstop⟩ | ⟨k, fault, rfl, rfl, hfail⟩
  · exact .inl ⟨_, hresult, hstop⟩
  · have hset' : (s.afterTurns k).instructions = .standard := by
      rw [instructions_afterTurns, hset]
    obtain ⟨hfault, hcpu⟩ := (h.afterTurns k).turn_of_fail hset' hfail
    refine .inr ⟨k, fault, hresult, hfault, ?_⟩
    rw [hsandbox, afterTurns_succ, hcpu]

end Unattended

end Sandbox

namespace CommandLine

/-- A pending prefix is not shown. -/
theorem faultText_withRep (e : RunError) (cpu : Cpu) (rep : Option RepPrefix) :
    faultText e { cpu with rep } = faultText e cpu := by
  have hdump : ({ cpu with rep } : Cpu).dump = cpu.dump := by
    unfold Cpu.dump
    rfl
  unfold faultText
  rw [hdump]

/-- The text about a fault has the registers and eight bytes of code. -/
theorem faultText_fault (n : Nat) (fault : Fault) (cpu : Cpu) :
    faultText (.fault n fault) cpu =
      "Execution failed: " ++ (RunError.fault n fault).message ++ "\n" ++ cpu.dump ++ "\n" ++
        ("Bytes at " ++ hex32 cpu.eip ++ ": " ++
          String.join ((cpu.memory.readBytes cpu.eip 8).map fun b => hexDigits 2 b.toNat) ++
          "\n") := rfl

/-- Given these arguments and files, the runner has loaded its image and is about to run it. -/
inductive Loads (readers : Readers) (arguments : List String) (file? : String → Option Pe.Bytes) :
    Sandbox Unit → Prop where
  | intro {r : Request} {config : Config} {file : Pe.Bytes} {image : LoadedImage}
    (hrequest : readers.arguments arguments = .ok r)
    (hconfig : r.readConfig readers.config file? = .ok config)
    (hfile : file? r.image = some file)
    (hload : ((sandbox (r.settings config)).loadWith readers.image file).result = .ok image) :
    Loads readers arguments file?
      ((sandbox (r.settings config)).loadWith readers.image file).sandbox

section Loaded

variable {readers : Readers} {config : Config} {path : String} {file : Pe.Bytes}
  {image : LoadedImage} (hload : ((sandbox config).loadWith readers.image file).result = .ok image)

include hload

/-- The sandbox of the runner is one that nobody has a say in, and a load leaves it so. -/
theorem sandbox_load : ((sandbox config).loadWith readers.image file).sandbox.Unattended ∧
    ((sandbox config).loadWith readers.image file).sandbox.instructions = .standard ∧
    ((sandbox config).loadWith readers.image file).sandbox.image.isNone = false := by
  rw [Sandbox.loadWith, Sandbox.sandbox_install_of_ok hload]
  exact ⟨⟨rfl, rfl⟩, rfl, rfl⟩

/-- **The report on a run that stops**, with the word for its reason. -/
theorem runImage_of_stop {summary : Summary}
    (hresult : ((sandbox config).loadWith readers.image file).sandbox.execute.result =
      .ok summary) :
    ∃ word, (summary.stop = .halted ∧ word = "Halted" ∨
        summary.stop = .budgetExhausted ∧ word = "BudgetExhausted") ∧
      (readers.runImage path file config).1 = .finished 0
        ("Stopped: " ++ word ++ " after " ++ toString summary.instructions ++
          " instructions (" ++ toString summary.faults ++ " faults)\n") "" := by
  obtain ⟨hunattended, hset, himage⟩ := sandbox_load hload
  have hstop : summary.stop = .halted ∨ summary.stop = .budgetExhausted := by
    rcases hunattended.execute_cases hset himage with ⟨_, hresult', hstop⟩ | ⟨_, _, hresult', -⟩
    · cases hresult.symm.trans hresult'
      exact hstop
    · cases hresult.symm.trans hresult'
  have hnot : summary.stop ≠ .aborted := by
    rcases hstop with hstop | hstop <;> rw [hstop] <;> decide
  refine ⟨summary.stop.label, ?_, ?_⟩
  · rcases hstop with hstop | hstop
    · rw [hstop]
      exact .inl ⟨rfl, rfl⟩
    · rw [hstop]
      exact .inr ⟨rfl, rfl⟩
  · rw [Readers.runImage, hload]
    dsimp only
    rw [hresult]
    dsimp only
    rw [if_neg hnot]

/-- **The report on a run that fails**, with the state in which the failing instruction was
fetched. -/
theorem runImage_of_fail {error : RunError}
    (hresult : ((sandbox config).loadWith readers.image file).sandbox.execute.result =
      .error error) :
    let s := ((sandbox config).loadWith readers.image file).sandbox
    ∃ n fault, error = .fault (n + 1) fault ∧ (s.afterTurns n).dispatch.result = .error fault ∧
      (readers.runImage path file config).1 =
        .finished 1 "" (faultText (.fault (n + 1) fault) (s.afterTurns n).cpu) := by
  obtain ⟨hunattended, hset, himage⟩ := sandbox_load hload
  rcases hunattended.execute_cases hset himage with
    ⟨_, hresult', -⟩ | ⟨n, fault, hresult', hfault, hcpu⟩
  · cases hresult.symm.trans hresult'
  · cases hresult.symm.trans hresult'
    refine ⟨n, fault, rfl, hfault, ?_⟩
    rw [Readers.runImage, hload]
    dsimp only
    rw [hresult]
    dsimp only
    rw [hcpu, faultText_withRep]

/-- The exit code tells the two apart. -/
theorem code_runImage : (readers.runImage path file config).1.code =
    if ((sandbox config).loadWith readers.image file).sandbox.execute.result.isOk then 0
    else 1 := by
  cases hresult : ((sandbox config).loadWith readers.image file).sandbox.execute.result with
  | ok summary =>
    obtain ⟨word, -, hreport⟩ := runImage_of_stop hload hresult
    rw [hreport]
    rfl
  | error error =>
    obtain ⟨n, fault, -, -, hreport⟩ := runImage_of_fail hload hresult
    rw [hreport]
    rfl

end Loaded

section Reports

variable {arguments : List String} {file? : String → Option Pe.Bytes} {s : Sandbox Unit}

/-- **What the runner says once it has loaded an image**, whatever has read the arguments, the
configuration and the image, and whatever budget and policy they ask for.

* a run that stops does so because the program has halted or the budget is spent; the exit code
  is 0, and the runner prints `Halted` or `BudgetExhausted`, and the counts of the run;
* a run that fails does so at an instruction, the `n`-th counted from zero; the exit code is 1, and
  the runner prints the fault, the registers as they were when this instruction was fetched, and
  the eight bytes at its address;
* the exit code is 0 exactly for a run that stops, and it is never 2. -/
theorem run_reports (readers : Readers) (h : Loads readers arguments file? s) :
    let report := readers.run arguments file?
    (∀ summary, s.execute.result = .ok summary → ∃ word,
      (summary.stop = .halted ∧ word = "Halted" ∨
        summary.stop = .budgetExhausted ∧ word = "BudgetExhausted") ∧
      report = .finished 0
        ("Stopped: " ++ word ++ " after " ++ toString summary.instructions ++
          " instructions (" ++ toString summary.faults ++ " faults)\n") "") ∧
    (∀ error, s.execute.result = .error error → ∃ n fault,
      error = .fault (n + 1) fault ∧
      (s.afterTurns n).dispatch.result = .error fault ∧
      let cpu := (s.afterTurns n).cpu
      report = .finished 1 ""
        ("Execution failed: " ++ error.message ++ "\n" ++ cpu.dump ++ "\n" ++
          ("Bytes at " ++ hex32 cpu.eip ++ ": " ++
            String.join ((cpu.memory.readBytes cpu.eip 8).map fun b => hexDigits 2 b.toNat) ++
            "\n"))) ∧
    (report.code = 0 ↔ ∃ summary, s.execute.result = .ok summary) ∧
    report.code ≠ 2 := by
  intro report
  obtain @⟨r, config, file, image, hrequest, hconfig, hfile, hload⟩ := h
  have hreport : report = (readers.runImage r.image file (r.settings config)).1 := by
    show readers.run arguments file? = _
    rw [Readers.run, hrequest]
    dsimp only
    rw [Readers.serve, hconfig]
    dsimp only
    rw [hfile]
  rw [hreport, code_runImage hload]
  refine ⟨fun summary hresult => runImage_of_stop hload hresult, fun error hresult => ?_, ?_, ?_⟩
  · obtain ⟨n, fault, rfl, hfault, hfails⟩ := runImage_of_fail hload hresult
    exact ⟨n, fault, rfl, hfault, hfails.trans (by rw [faultText_fault])⟩
  · cases ((sandbox (r.settings config)).loadWith readers.image file).sandbox.execute.result with
    | ok summary => exact ⟨fun _ => ⟨summary, rfl⟩, fun _ => rfl⟩
    | error error => exact ⟨nofun, nofun⟩
  · split <;> decide

end Reports

/-! ## Three runs -/

open InstructionSet
open Sandbox (codeFile codeImage CodeLoaded Loadable loadWith_eq_mount)

/-- NOP, and bytes that are no instruction. -/
def garbageCode : List UInt8 := [0x90, 0x0f, 0x1f]

/-- NOP and HLT. -/
def haltCode : List UInt8 := [0x90, 0xf4]

/-- The two programs, and a configuration with a budget of one instruction. -/
def programs? (path : String) : Option Pe.Bytes :=
  if path = "garbage.exe" then some (codeFile garbageCode)
  else if path = "halt.exe" then some (codeFile haltCode)
  else if path = "vm.json" then some "\x7b\"instruction_budget\": 1\x7d".toUTF8.data
  else none

theorem loadable_garbageCode : Loadable garbageCode := ⟨by decide +kernel, by decide⟩

theorem loadable_haltCode : Loadable haltCode := ⟨by decide +kernel, by decide⟩

/-- A program is loaded if its file is read as an image with its code. -/
theorem exists_loads {arguments : List String} {r : Request} {config : Config} {code : List UInt8}
    (hrequest : parse arguments = .ok r)
    (hconfig : r.readConfig Config.parse? programs? = .ok config)
    (hfile : programs? r.image = some (codeFile code))
    (hread : Pe.Image.parse? (codeFile code) = some (codeImage code)) (h : Loadable code) :
    ∃ s, Loads readers arguments programs? s ∧
      CodeLoaded code (sandbox (r.settings config)) s := by
  have hmount (s : Sandbox Unit) : s.loadWith readers.image (codeFile code) =
      s.mount (codeImage code) (codeFile code) := loadWith_eq_mount hread
  have hresult := h.result_mount (sandbox (r.settings config))
  have hloaded := h.codeLoaded (sandbox (r.settings config))
  rw [← hmount] at hresult hloaded
  exact ⟨_, .intro hrequest hconfig hfile hresult, hloaded⟩

/-- The state after the NOP. -/
def afterNop (cpu : Cpu) : Cpu := { cpu with eip := 0x401001, retired := 1 }

section Programs

variable {code : List UInt8} {config : Config} {s : Sandbox Unit}
  (h : CodeLoaded code (sandbox config) s) (hnop : code[0]? = some 0x90)

include h

theorem unattended_code : s.Unattended := by
  rw [h.rest]
  exact ⟨rfl, rfl⟩

theorem cpu_code :
    ∃ memory, s.cpu = { Cpu.withStackTop config.stackTop with memory, eip := 0x401000 } := h.cpu

theorem opcode_afterNop : (afterNop s.cpu).opcode = code[1]?.getD 0 := h.read8 0x401001 (by decide)

/-- Neither the program nor its NOP halts. -/
theorem stopReason?_code :
    s.stopReason? = none ∧ { s with cpu := afterNop s.cpu }.stopReason? = none := by
  obtain ⟨memory, hcpu⟩ := cpu_code h
  have hrunning : s.cpu.halted = false := by
    rw [hcpu]
    rfl
  have hnotRequested := (unattended_code h).notRequested
  exact ⟨Sandbox.stopReason?_eq_none_iff.mpr ⟨hnotRequested, hrunning⟩,
    Sandbox.stopReason?_eq_none_iff.mpr ⟨hnotRequested, hrunning⟩⟩

include hnop

/-- The NOP is carried out. -/
theorem turn_nop : s.turn =
    ⟨.next, false, { s with cpu := afterNop s.cpu }, standard.preamble s.cpu⟩ := by
  obtain ⟨memory, hcpu⟩ := cpu_code h
  have hopcode : s.cpu.opcode = 0x90 := by
    have hread : s.cpu.memory.read8 0x401000 = code[0]?.getD 0 := h.read8 0x401000 (by decide)
    rw [Cpu.opcode, h.eip, hread, hnop]
    rfl
  have hhandler : standard.handler? s.cpu.opcode = some .nop := by
    rw [hopcode, standard_handler?_eq]
    rfl
  have hnext : (s.cpu.dropRep.advance 1).retire = afterNop s.cpu := by
    rw [hcpu]
    rfl
  have hset : s.instructions = standard := h.instructions
  refine Sandbox.turn_of_ok ?_
  rw [Sandbox.dispatch, hset, dispatch_run_dropRep s.linkage hhandler rfl]
  change concluded _ ⟨.ok (), s.cpu.dropRep.advance 1, []⟩ = _
  rw [concluded_ok, hnext, List.append_nil]

/-- The run goes on after the NOP. -/
theorem execute_code {budget : Nat} (hbudget : config.instructionBudget.toNat = budget + 1) :
    ∃ p : Progress Unit, p.sandbox = { s with cpu := afterNop s.cpu } ∧
      p.instructions = 1 ∧ p.faults = 0 ∧
      s.execute = Sandbox.report (Sandbox.runFor budget p) := by
  have himage : s.image.isNone = false := by
    rw [h.rest]
    rfl
  have hconfig : s.config = config := by
    rw [h.rest]
    rfl
  have hturn : s.start.sandbox.turn = _ := turn_nop h hnop
  have hgo : s.start.sandbox.stopReason? = none := (stopReason?_code h).1
  have hnext : s.start.sandbox.turn.verdict = .next := by rw [hturn]
  have hexecute : s.execute =
      Sandbox.report (Sandbox.runFor budget (s.start.add s.start.sandbox.turn)) := by
    rw [Sandbox.execute_eq_report himage, hconfig, hbudget, Sandbox.runFor_of_next budget hgo hnext]
  rw [hturn] at hexecute
  exact ⟨_, rfl, rfl, rfl, hexecute⟩

/-- With a budget of one the NOP is all. -/
theorem result_of_one (hbudget : config.instructionBudget = 1) :
    s.execute.result = .ok ⟨1, 0, .budgetExhausted⟩ := by
  have hone : config.instructionBudget.toNat = 0 + 1 := by rw [hbudget]; rfl
  obtain ⟨p, hsandbox, hinstructions, hfaults, hexecute⟩ := execute_code h hnop hone
  rw [hexecute, Sandbox.runFor, hsandbox, (stopReason?_code h).2]
  show Except.ok (Summary.mk p.instructions p.faults .budgetExhausted) = _
  rw [hinstructions, hfaults]

end Programs

section Halt

variable {config : Config} {s : Sandbox Unit} (h : CodeLoaded haltCode (sandbox config) s)

include h

/-- The HLT is carried out. -/
theorem turn_halt : ∃ cpu events, { s with cpu := afterNop s.cpu }.turn =
    ⟨.next, false, { s with cpu }, events⟩ ∧ cpu.halted = true := by
  have hopcode : (afterNop s.cpu).opcode = 0xf4 := opcode_afterNop h
  have hhandler : standard.handler? (afterNop s.cpu).opcode = some .halt := by
    rw [hopcode, standard_handler?_eq]
    rfl
  have hset : s.instructions = standard := h.instructions
  have hrun := dispatch_run_dropRep s.linkage hhandler rfl
  rw [← hset] at hrun
  exact ⟨_, _, Sandbox.turn_of_ok hrun, rfl⟩

theorem result_of_halt (hbudget : config.instructionBudget = 7) :
    s.execute.result = .ok ⟨2, 0, .halted⟩ := by
  have hseven : config.instructionBudget.toNat = 6 + 1 := by rw [hbudget]; rfl
  obtain ⟨p, hsandbox, hinstructions, hfaults, hexecute⟩ := execute_code h rfl hseven
  obtain ⟨cpu, events, hturn, hhalted⟩ := turn_halt h
  rw [← hsandbox] at hturn
  have hgo : p.sandbox.stopReason? = none := by
    rw [hsandbox]
    exact (stopReason?_code h).2
  have hnext : p.sandbox.turn.verdict = .next := by rw [hturn]
  have hstop : (p.add p.sandbox.turn).sandbox.stopReason? = some .halted := by
    rw [hturn]
    exact Sandbox.stopReason?_eq_some_iff.mpr
      (.inr ⟨(unattended_code h).notRequested, hhalted, rfl⟩)
  rw [hexecute, Sandbox.runFor_of_next 5 hgo hnext, Sandbox.runFor_of_stop 5 hstop, hturn]
  show Except.ok (Summary.mk (p.instructions + 1) p.faults .halted) = _
  rw [hinstructions, hfaults]

end Halt

section Garbage

variable {config : Config} {s : Sandbox Unit} (h : CodeLoaded garbageCode (sandbox config) s)

include h

theorem afterTurns_garbage : s.afterTurns 1 = { s with cpu := afterNop s.cpu } := by
  rw [Sandbox.afterTurns_succ, Sandbox.afterTurns_zero, turn_nop h rfl]

/-- No instruction starts with the byte `0f`. -/
theorem verdict_garbage : { s with cpu := afterNop s.cpu }.turn.verdict =
    .fail (.unimplementedOpcode 0x0f 0x401001) := by
  have hopcode : (afterNop s.cpu).opcode = 0x0f := opcode_afterNop h
  have hunclaimed : standard.handler? 0x0f = none := by
    rw [standard_handler?_eq]
    rfl
  have hset : s.instructions = standard := h.instructions
  have hrun := dispatch_run_of_none s.linkage (hopcode ▸ hunclaimed)
  rw [hopcode] at hrun
  have hdispatch : ({ s with cpu := afterNop s.cpu } : Sandbox Unit).dispatch =
      ⟨.error (.unimplementedOpcode 0x0f 0x401001), afterNop s.cpu, []⟩ := by
    rw [Sandbox.dispatch, hset]
    exact hrun
  have hfatal (violation : AccessViolation) :
      Fault.unimplementedOpcode 0x0f 0x401001 ≠ .accessViolation violation := by
    intro heq
    cases heq
  rw [Sandbox.turn_of_unhandled hdispatch (unattended_code h).handler? fun _ => hfatal]

theorem result_of_garbage (hbudget : config.instructionBudget = 7) :
    s.execute.result = .error (.fault 2 (.unimplementedOpcode 0x0f 0x401001)) := by
  have hseven : config.instructionBudget.toNat = 6 + 1 := by rw [hbudget]; rfl
  obtain ⟨p, hsandbox, hinstructions, -, hexecute⟩ := execute_code h rfl hseven
  have hgo : p.sandbox.stopReason? = none := by
    rw [hsandbox]
    exact (stopReason?_code h).2
  have hfail : p.sandbox.turn.verdict = .fail (.unimplementedOpcode 0x0f 0x401001) := by
    rw [hsandbox]
    exact verdict_garbage h
  rw [hexecute, Sandbox.runFor_of_fail 5 hgo hfail]
  show Except.error (RunError.fault (p.instructions + 1) _) = _
  rw [hinstructions]

theorem dump_garbage (hstack : config.stackTop = 0x80000) : (afterNop s.cpu).dump =
    "EIP: 0x00401001\n" ++
      "EAX: 0x00000000\nECX: 0x00000000\nEDX: 0x00000000\nEBX: 0x00000000\n" ++
      "ESP: 0x00080000\nEBP: 0x00000000\nESI: 0x00000000\nEDI: 0x00000000\n" ++
      "ZF=0 CF=0 SF=0 OF=0 DF=0 IF=0 PF=0" := by
  obtain ⟨memory, hcpu⟩ := cpu_code h
  have hdump : (afterNop s.cpu).dump =
      ({ Cpu.withStackTop 0x80000 with eip := 0x401001 } : Cpu).dump := by
    rw [hcpu, hstack]
    unfold Cpu.dump
    rfl
  rw [hdump]
  decide +kernel

theorem readBytes_garbage :
    (afterNop s.cpu).memory.readBytes 0x401001 8 = [0x0f, 0x1f, 0, 0, 0, 0, 0, 0] := by
  have hread : ∀ i < 8, s.cpu.memory.read8 (0x401001 + UInt32.ofNat i) =
      garbageCode[(0x401001 + UInt32.ofNat i - 0x401000).toNat]?.getD 0 := by
    intro i hi
    refine h.read8 _ ?_
    revert i
    decide
  have hbytes := List.map_congr_left fun i hi => hread i (List.mem_range.mp hi)
  exact hbytes.trans (by decide)

end Garbage

/-- Arguments that override the budget of the configuration. -/
def garbageArguments : List String := ["-c", "vm.json", "-b7", "--strict", "garbage.exe"]

/-- Arguments without a configuration. -/
def haltArguments : List String := ["--budget=7", "halt.exe"]

/-- Arguments that leave the budget to the configuration. -/
def spentArguments : List String := ["-cvm.json", "halt.exe"]

/-- A run that fails, one that halts, and one that spends its budget. -/
theorem run_reports_three_runs :
    ((∃ s, Loads readers garbageArguments programs? s) ∧
      run garbageArguments programs? = .finished 1 ""
        ("Execution failed: Execution stopped after 2 instructions: " ++
          "Unimplemented opcode 0x0f at 0x00401001\n" ++
          "EIP: 0x00401001\n" ++
          "EAX: 0x00000000\nECX: 0x00000000\nEDX: 0x00000000\nEBX: 0x00000000\n" ++
          "ESP: 0x00080000\nEBP: 0x00000000\nESI: 0x00000000\nEDI: 0x00000000\n" ++
          "ZF=0 CF=0 SF=0 OF=0 DF=0 IF=0 PF=0\n" ++
          "Bytes at 0x00401001: 0f1f000000000000\n")) ∧
    ((∃ s, Loads readers haltArguments programs? s) ∧
      run haltArguments programs? =
        .finished 0 "Stopped: Halted after 2 instructions (0 faults)\n" "") ∧
    ((∃ s, Loads readers spentArguments programs? s) ∧
      run spentArguments programs? =
        .finished 0 "Stopped: BudgetExhausted after 1 instructions (0 faults)\n" "") := by
  have hgarbage : parse garbageArguments = .ok
      { image := "garbage.exe", config := some "vm.json", budget := some 7, strict := true } := rfl
  have hhalt : parse haltArguments = .ok { image := "halt.exe", budget := some 7 } := rfl
  have hspent : parse spentArguments = .ok { image := "halt.exe", config := some "vm.json" } := rfl
  have hconfig : Config.ofFile (programs? "vm.json") = .ok { instructionBudget := 1 } := by
    decide +kernel
  have hgarbageRead : Pe.Image.parse? (codeFile garbageCode) = some (codeImage garbageCode) := by
    decide +kernel
  have hhaltRead : Pe.Image.parse? (codeFile haltCode) = some (codeImage haltCode) := by
    decide +kernel
  refine ⟨?_, ?_, ?_⟩
  · obtain ⟨s, hloads, hloaded⟩ :=
      exists_loads hgarbage hconfig rfl hgarbageRead loadable_garbageCode
    refine ⟨⟨s, hloads⟩, ?_⟩
    obtain ⟨-, hfails, -, -⟩ := run_reports readers hloads
    obtain ⟨n, fault, herror, -, hreport⟩ := hfails _ (result_of_garbage hloaded rfl)
    obtain ⟨rfl, rfl⟩ : n = 1 ∧ fault = .unimplementedOpcode 0x0f 0x401001 := by
      cases herror
      exact ⟨rfl, rfl⟩
    rw [afterTurns_garbage hloaded] at hreport
    dsimp only at hreport
    have heip : (afterNop s.cpu).eip = 0x401001 := rfl
    rw [run, hreport, dump_garbage hloaded rfl, heip, readBytes_garbage hloaded]
    decide +kernel
  · obtain ⟨s, hloads, hloaded⟩ := exists_loads hhalt rfl rfl hhaltRead loadable_haltCode
    refine ⟨⟨s, hloads⟩, ?_⟩
    obtain ⟨hstops, -, -, -⟩ := run_reports readers hloads
    obtain ⟨word, ⟨-, rfl⟩ | ⟨hstop, -⟩, hreport⟩ := hstops _ (result_of_halt hloaded rfl)
    · rw [run, hreport]
      decide +kernel
    · cases hstop
  · obtain ⟨s, hloads, hloaded⟩ := exists_loads hspent hconfig rfl hhaltRead loadable_haltCode
    refine ⟨⟨s, hloads⟩, ?_⟩
    obtain ⟨hstops, -, -, -⟩ := run_reports readers hloads
    obtain ⟨word, ⟨hstop, -⟩ | ⟨-, rfl⟩, hreport⟩ := hstops _ (result_of_one hloaded rfl rfl)
    · cases hstop
    · rw [run, hreport]
      decide +kernel

end CommandLine

end Ia32
