import Ia32.InstructionSet
import Ia32.Proofs.Effect

/-!
# The dispatcher

* `handler?_ofList`: **the table of a set is the scan of its handlers**, the first one
  that claims an opcode.
* `dispatch_run`: a dispatch runs the handler in the primed state, in which a pending
  repeat prefix has been dropped if the handler has no use for it.
-/

namespace Ia32

namespace InstructionSet

/-- Every place in the table is the place of a handler. -/
def WellFormed (set : InstructionSet) : Prop :=
  ∀ opcode : Fin 256, ∀ place, set.table.get opcode = some place → place < set.handlers.size

theorem wellFormed_empty : empty.WellFormed := by
  intro opcode place h
  simp [empty, Vector.get] at h

theorem table_register (set : InstructionSet) (handler : Handler) (opcode : Fin 256) :
    (set.register handler).table.get opcode = (set.table.get opcode).or
      (if handler.claims (UInt8.ofNat opcode) then some set.handlers.size else none) := by
  have hget : (set.register handler).table.get opcode = (set.register handler).table[opcode] := rfl
  rw [hget, register, Fin.getElem_fin, Vector.getElem_mapIdx]
  change _ = (set.table[opcode.val]).or _
  cases set.table[opcode.val] <;> rfl

theorem wellFormed_register {set : InstructionSet} (hset : set.WellFormed) (handler : Handler) :
    (set.register handler).WellFormed := by
  intro opcode place h
  rw [table_register] at h
  have hsize : (set.register handler).handlers.size = set.handlers.size + 1 :=
    Array.size_push handler
  -- an opcode that is taken keeps its place, and any other one is given the last place
  cases hplace : set.table.get opcode with
  | some place' =>
    rw [hplace] at h
    cases h
    have := hset opcode place hplace
    omega
  | none =>
    rw [hplace, Option.none_or] at h
    split at h <;> cases h
    omega

/-- A handler that is added gets the opcodes that it claims and that had no handler. -/
theorem handler?_register {set : InstructionSet} (hset : set.WellFormed) (handler : Handler)
    (opcode : UInt8) :
    (set.register handler).handler? opcode =
      (set.handler? opcode).or (if handler.claims opcode then some handler else none) := by
  simp only [handler?, table_register, UInt8.ofNat_toNat]
  cases hplace : set.table.get ⟨opcode.toNat, opcode.toNat_lt⟩ with
  | some place =>
    have hlt := hset _ _ hplace
    simp [register, Array.getElem?_push, hlt, Nat.ne_of_lt hlt]
  | none => by_cases hc : handler.claims opcode <;> simp [register, hc]

/-- What the handlers of a well-formed set do not claim, those added later may. -/
theorem handler?_foldl_register (handlers : List Handler) {set : InstructionSet}
    (hset : set.WellFormed) (opcode : UInt8) :
    (handlers.foldl register set).handler? opcode =
      (set.handler? opcode).or (handlers.find? (·.claims opcode)) := by
  induction handlers generalizing set with
  | nil => simp
  | cons handler handlers ih =>
    rw [List.foldl_cons, ih (wellFormed_register hset handler), handler?_register hset,
      Option.or_assoc, List.find?_cons]
    cases handler.claims opcode <;> simp

/-- **The handler of an opcode is the first one registered that claims it.** -/
theorem handler?_ofList (handlers : List Handler) (opcode : UInt8) :
    (ofList handlers).handler? opcode = handlers.find? (·.claims opcode) := by
  rw [ofList, handler?_foldl_register _ wellFormed_empty]
  simp [handler?, empty, Vector.get]

theorem standard_handler?_eq (opcode : UInt8) :
    standard.handler? opcode = standardHandlers.find? (·.claims opcode) :=
  handler?_ofList standardHandlers opcode

theorem mem_of_standard_handler? {opcode : UInt8} {handler : Handler}
    (h : standard.handler? opcode = some handler) : handler ∈ standardHandlers := by
  rw [standard_handler?_eq] at h
  exact List.mem_of_find?_eq_some h

theorem claims_of_standard_handler? {opcode : UInt8} {handler : Handler}
    (h : standard.handler? opcode = some handler) : handler.claims opcode = true := by
  rw [standard_handler?_eq] at h
  exact List.find?_some (p := fun handler : Handler => handler.claims opcode) h

/-- Some handler claims the opcode. -/
def Claimed (opcode : UInt8) : Prop := ∃ handler ∈ standardHandlers, handler.claims opcode = true

theorem standard_handler?_eq_none_iff {opcode : UInt8} :
    standard.handler? opcode = none ↔ ¬ Claimed opcode := by
  rw [standard_handler?_eq, List.find?_eq_none, Claimed]
  simp only [not_exists, not_and]

theorem Claimed.exists_handler {opcode : UInt8} (h : Claimed opcode) :
    ∃ handler, standard.handler? opcode = some handler :=
  Option.ne_none_iff_exists'.mp fun hnone => standard_handler?_eq_none_iff.mp hnone h

/-! ## One dispatch -/

/-- The repeat prefix that reaches the handler of the next instruction: the pending one,
unless there is a handler that has no use for it. -/
def keptRep (set : InstructionSet) (cpu : Cpu) : Option RepPrefix :=
  match set.handler? cpu.opcode with
  | some handler => if handler.usesRep then cpu.rep else none
  | none => cpu.rep

/-- The state in which the handler of the next instruction runs. -/
def primed (set : InstructionSet) (cpu : Cpu) : Cpu := { cpu with rep := set.keptRep cpu }

/-- The events of a dispatch before its handler runs. -/
def notes (handler : Handler) (cpu : Cpu) : List Event :=
  (if cpu.rep.isSome && !handler.usesRep then [.repDropped handler.mnemonic cpu.eip] else []) ++
    [.dispatched cpu.eip cpu.opcode handler.mnemonic]

/-- The events of a dispatch before anything is carried out. -/
def preamble (set : InstructionSet) (cpu : Cpu) : List Event :=
  match set.handler? cpu.opcode with
  | some handler => notes handler cpu
  | none => []

variable (set : InstructionSet) (linkage : Linkage) (cpu : Cpu)

@[simp] theorem opcode_primed : (set.primed cpu).opcode = cpu.opcode := rfl

@[simp] theorem halted_primed : (set.primed cpu).halted = cpu.halted := rfl

@[simp] theorem retired_primed : (set.primed cpu).retired = cpu.retired := rfl

@[simp] theorem frames_primed : (set.primed cpu).frames = cpu.frames := rfl

/-- A prefix that has been dropped stays dropped. -/
@[simp] theorem primed_primed : set.primed (set.primed cpu) = set.primed cpu := by
  have hkept : set.keptRep (set.primed cpu) = set.keptRep cpu := by
    rw [keptRep, opcode_primed]
    cases h : set.handler? cpu.opcode with
    | none => rfl
    | some handler => cases hu : handler.usesRep <;> simp [primed, keptRep, h, hu]
  rw [primed, hkept]
  rfl

variable {set cpu}

theorem primed_of_none (h : set.handler? cpu.opcode = none) : set.primed cpu = cpu := by
  simp [primed, keptRep, h]

theorem primed_of_usesRep {handler : Handler} (h : set.handler? cpu.opcode = some handler)
    (huses : handler.usesRep = true) : set.primed cpu = cpu := by
  simp [primed, keptRep, h, huses]

theorem primed_of_not_usesRep {handler : Handler} (h : set.handler? cpu.opcode = some handler)
    (huses : handler.usesRep = false) : set.primed cpu = cpu.dropRep := by
  simp [primed, keptRep, h, huses, Cpu.dropRep]

theorem dispatch_run_of_none (h : set.handler? cpu.opcode = none) :
    (set.dispatch linkage).run cpu =
      ⟨.error (.unimplementedOpcode cpu.opcode cpu.eip), cpu, []⟩ := by
  rw [dispatch, Exec.state_bind_run]
  simp only [h]
  rfl

/-- A step between its note and its retirement. -/
theorem noted_run (event : Event) (x : Exec Fault Unit) (cpu : Cpu) :
    (do Exec.emit event; x; Exec.update Cpu.retire : Exec Fault Unit).run cpu =
      match x.run cpu with
      | ⟨.ok (), cpu', events⟩ => ⟨.ok (), cpu'.retire, event :: events⟩
      | ⟨.error fault, cpu', events⟩ => ⟨.error fault, cpu', event :: events⟩ := by
  rw [Exec.bind_run, Exec.emit_run]
  simp only [Exec.bind_run, Exec.update_run]
  rcases x.run cpu with ⟨fault | _, cpu', events⟩
  · rfl
  · simp

/-- **One dispatch**: the handler runs in the primed state, and an instruction that
succeeds retires. -/
theorem dispatch_run {handler : Handler} (h : set.handler? cpu.opcode = some handler) :
    (set.dispatch linkage).run cpu =
      match (handler.execute cpu.opcode linkage).run (set.primed cpu) with
      | ⟨.ok (), cpu', events⟩ => ⟨.ok (), cpu'.retire, notes handler cpu ++ events⟩
      | ⟨.error fault, cpu', events⟩ => ⟨.error fault, cpu', notes handler cpu ++ events⟩ := by
  rw [dispatch, Exec.state_bind_run]
  simp only [h]
  -- the prefix is dropped or it is not; from there on both branches run the same steps
  split
  · rename_i hdrop
    obtain ⟨hrep, huses⟩ : cpu.rep.isSome = true ∧ handler.usesRep = false := by
      simpa using hdrop
    have hprimed : set.primed cpu = cpu.dropRep := primed_of_not_usesRep h huses
    have hnotes : notes handler cpu = [.repDropped handler.mnemonic cpu.eip,
        .dispatched cpu.eip cpu.opcode handler.mnemonic] := by simp [notes, hrep, huses]
    rw [Exec.bind_run, Exec.emit_run]
    simp only [Exec.bind_run (Exec.update _), Exec.update_run, noted_run, hprimed, hnotes]
    rcases (handler.execute cpu.opcode linkage).run cpu.dropRep
      with ⟨fault | _, cpu', events⟩ <;> rfl
  · rename_i hkeep
    have hkept : set.keptRep cpu = cpu.rep := by
      cases huses : handler.usesRep <;> simp_all [keptRep]
    have hprimed : set.primed cpu = cpu := by rw [primed, hkept]
    have hnotes : notes handler cpu = [.dispatched cpu.eip cpu.opcode handler.mnemonic] := by
      simp [notes, hkeep]
    rw [noted_run, hprimed, hnotes]
    rfl

theorem dispatch_result {handler : Handler} (h : set.handler? cpu.opcode = some handler) :
    ((set.dispatch linkage).run cpu).result =
      ((handler.execute cpu.opcode linkage).run (set.primed cpu)).result := by
  rw [dispatch_run linkage h]
  rcases (handler.execute cpu.opcode linkage).run (set.primed cpu) with ⟨_ | _, _, _⟩ <;> rfl

theorem preamble_of_some {handler : Handler} (h : set.handler? cpu.opcode = some handler) :
    set.preamble cpu = notes handler cpu := by
  rw [preamble, h]

/-- What a dispatch makes of the outcome of its handler: its notes come first, and an
instruction that succeeds retires. -/
def concluded (notes : List Event) : Outcome Fault Unit → Outcome Fault Unit
  | ⟨.ok (), cpu, events⟩ => ⟨.ok (), cpu.retire, notes ++ events⟩
  | ⟨.error fault, cpu, events⟩ => ⟨.error fault, cpu, notes ++ events⟩

theorem concluded_ok (notes events : List Event) (cpu : Cpu) :
    concluded notes ⟨.ok (), cpu, events⟩ = ⟨.ok (), cpu.retire, notes ++ events⟩ := rfl

theorem concluded_error (notes events : List Event) (fault : Fault) (cpu : Cpu) :
    concluded notes ⟨.error fault, cpu, events⟩ = ⟨.error fault, cpu, notes ++ events⟩ := rfl

/-- An instruction that has a use for a pending prefix runs in the state as it is. -/
theorem dispatch_run_keepRep {handler : Handler} (h : set.handler? cpu.opcode = some handler)
    (huses : handler.usesRep = true) : (set.dispatch linkage).run cpu =
      concluded (set.preamble cpu) ((handler.execute cpu.opcode linkage).run cpu) := by
  rw [dispatch_run linkage h, primed_of_usesRep h huses, preamble_of_some h]
  rcases (handler.execute cpu.opcode linkage).run cpu with ⟨fault | _, cpu', events⟩ <;> rfl

/-- Any other instruction runs in the state without it. -/
theorem dispatch_run_dropRep {handler : Handler} (h : set.handler? cpu.opcode = some handler)
    (huses : handler.usesRep = false) : (set.dispatch linkage).run cpu =
      concluded (set.preamble cpu) ((handler.execute cpu.opcode linkage).run cpu.dropRep) := by
  rw [dispatch_run linkage h, primed_of_not_usesRep h huses, preamble_of_some h]
  rcases (handler.execute cpu.opcode linkage).run cpu.dropRep
    with ⟨fault | _, cpu', events⟩ <;> rfl

/-- An instruction that succeeds has a handler, which has succeeded in the primed state. -/
theorem exists_of_dispatch {cpu' : Cpu} {events : List Event}
    (hrun : (set.dispatch linkage).run cpu = ⟨.ok (), cpu', events⟩) :
    ∃ handler left events', set.handler? cpu.opcode = some handler ∧
      (handler.execute cpu.opcode linkage).run (set.primed cpu) = ⟨.ok (), left, events'⟩ ∧
      cpu' = left.retire := by
  cases h : set.handler? cpu.opcode with
  | none =>
    rw [dispatch_run_of_none linkage h] at hrun
    cases hrun
  | some handler =>
    rw [dispatch_run linkage h] at hrun
    rcases hexecute : (handler.execute cpu.opcode linkage).run (set.primed cpu)
      with ⟨fault | _, left, events'⟩ <;> rw [hexecute] at hrun
    · cases hrun
    · cases hrun
      exact ⟨handler, left, events', rfl, hexecute, rfl⟩

/-! ## Runs of dispatches -/

/-- A set stays within `R` if its handlers do and `R` allows for the bookkeeping. -/
theorem within_dispatch {R : Cpu → Cpu → Prop} [IsPreorder Cpu R]
    (hprimed : ∀ cpu, R cpu (set.primed cpu)) (hretire : ∀ cpu, R cpu cpu.retire)
    (hset : ∀ opcode handler, set.handler? opcode = some handler →
      Exec.Within R (handler.execute opcode linkage)) :
    Exec.Within R (set.dispatch linkage) := by
  intro cpu
  cases h : set.handler? cpu.opcode with
  | none =>
    rw [dispatch_run_of_none linkage h]
    exact refl_of R cpu
  | some handler =>
    -- the prefix may be dropped first, and the count goes up only after a success
    have hwithin := trans_of R (hprimed cpu) (hset _ _ h (set.primed cpu))
    rw [dispatch_run linkage h]
    rcases hrun : (handler.execute cpu.opcode linkage).run (set.primed cpu)
      with ⟨fault | _, cpu', events⟩ <;> rw [hrun] at hwithin
    · exact hwithin
    · exact trans_of R hwithin (hretire cpu')

/-- The state after `n` dispatches, those that fail included. What the program is linked
to may be another for each of them. -/
def after (set : InstructionSet) (linkage : Nat → Linkage) (cpu : Cpu) : Nat → Cpu
  | 0 => cpu
  | n + 1 => ((set.dispatch (linkage n)).run (set.after linkage cpu n)).cpu

/-- A run may be cut anywhere. -/
theorem after_add (linkage : Nat → Linkage) (cpu : Cpu) (n k : Nat) :
    set.after linkage cpu (n + k) =
      set.after (fun i => linkage (n + i)) (set.after linkage cpu n) k := by
  induction k with
  | zero => rfl
  | succ k ih => rw [Nat.add_succ, after, after, ih]

/-- The first `n` dispatches succeed. -/
def Succeeds (set : InstructionSet) (linkage : Nat → Linkage) (cpu : Cpu) (n : Nat) : Prop :=
  ∀ j < n, ((set.dispatch (linkage j)).run (set.after linkage cpu j)).result = .ok ()

theorem Succeeds.mono {linkage : Nat → Linkage} {cpu : Cpu} {n k : Nat}
    (h : set.Succeeds linkage cpu n) (hk : k ≤ n) : set.Succeeds linkage cpu k :=
  fun j hj => h j (Nat.lt_of_lt_of_le hj hk)

theorem Succeeds.add {linkage : Nat → Linkage} {cpu : Cpu} {n k : Nat}
    (h : set.Succeeds linkage cpu n)
    (h' : set.Succeeds (fun i => linkage (n + i)) (set.after linkage cpu n) k) :
    set.Succeeds linkage cpu (n + k) := by
  intro j hj
  by_cases hjn : j < n
  · exact h j hjn
  · obtain ⟨i, rfl⟩ : ∃ i, j = n + i := ⟨j - n, by omega⟩
    rw [after_add]
    exact h' i (by omega)

theorem within_after {R : Cpu → Cpu → Prop} [IsPreorder Cpu R] {linkage : Nat → Linkage}
    (hdispatch : ∀ n, Exec.Within R (set.dispatch (linkage n))) (cpu : Cpu) (n : Nat) :
    R cpu (set.after linkage cpu n) := by
  induction n with
  | zero => exact refl_of R cpu
  | succ n ih => exact trans_of R ih (hdispatch n _)

end InstructionSet

end Ia32
