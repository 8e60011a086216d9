import Ia32.Instruction.Basic
import Mathlib.Order.Defs.Unbundled

/-!
# What computations leave alone

Three properties of computations on the processor, with a rule for every primitive and
one for sequencing, so that a handler has a property because its steps have it.

* `Exec.Within R x`: the state before `x` and the state after it are related by `R`.
* `Exec.Total x`: `x` ends with a value.
* `Exec.FailsFirst x`, for a family of computations: where one of them fails, all of them
  fail alike, before any has changed the state or made an event happen.
-/

namespace Ia32.Exec

variable {ε α β ι : Type} {R : Cpu → Cpu → Prop} [IsPreorder Cpu R]

/-- Whatever `x` does to a state, it stays within `R`. -/
def Within (R : Cpu → Cpu → Prop) (x : Exec ε α) : Prop := ∀ cpu, R cpu (x.run cpu).cpu

/-- `x` ends with a value from every state. -/
def Total (x : Exec ε α) : Prop := ∀ cpu, ∃ a, (x.run cpu).result = .ok a

/-- `x` changes no state and makes no event happen. -/
def Reads (x : Exec ε α) : Prop := ∀ cpu, (x.run cpu).cpu = cpu ∧ (x.run cpu).events = []

/-- A failure comes before any effect, and is the same for all members of the family. -/
def FailsFirst (x : ι → Exec ε α) : Prop :=
  ∀ i cpu e, ((x i).run cpu).result = .error e → ∀ j, (x j).run cpu = ⟨.error e, cpu, []⟩

/-! ## Sequencing -/

/-- A sequence fails with its first part, or ends as its second part does. -/
theorem bind_cases (x : Exec ε α) (f : α → Exec ε β) (cpu : Cpu) :
    (∃ e, (x.run cpu).result = .error e ∧
      (x >>= f).run cpu = ⟨.error e, (x.run cpu).cpu, (x.run cpu).events⟩) ∨
    ∃ a, (x.run cpu).result = .ok a ∧
      (x >>= f).run cpu = { (f a).run (x.run cpu).cpu with
        events := (x.run cpu).events ++ ((f a).run (x.run cpu).cpu).events } := by
  rw [bind_run]
  rcases x.run cpu with ⟨_ | a, cpu', events⟩
  · exact .inl ⟨_, rfl, rfl⟩
  · exact .inr ⟨a, rfl, rfl⟩

theorem Within.of_run {R : Cpu → Cpu → Prop} {x : Exec ε α} (hx : Within R x) {cpu cpu' : Cpu}
    {result : Except ε α} {events : List Event} (hrun : x.run cpu = ⟨result, cpu', events⟩) :
    R cpu cpu' := by
  have hcpu := hx cpu
  rw [hrun] at hcpu
  exact hcpu

theorem state_bind_run (f : Cpu → Exec ε α) (cpu : Cpu) :
    (state >>= f).run cpu = (f cpu).run cpu := rfl

/-- A sequence stays within what its parts make together, if the first part does so alone. -/
theorem Within.comp {R S T : Cpu → Cpu → Prop} {x : Exec ε α} {f : α → Exec ε β}
    (hx : Within R x) (hf : ∀ a, Within S (f a)) (hfirst : ∀ cpu cpu', R cpu cpu' → T cpu cpu')
    (hboth : ∀ cpu cpu' cpu'', R cpu cpu' → S cpu' cpu'' → T cpu cpu'') :
    Within T (x >>= f) := by
  intro cpu
  rcases bind_cases x f cpu with ⟨e, -, hrun⟩ | ⟨a, -, hrun⟩
  · rw [hrun]
    exact hfirst _ _ (hx cpu)
  · rw [hrun]
    exact hboth _ _ _ (hx cpu) (hf a _)

theorem Within.bind {x : Exec ε α} {f : α → Exec ε β} (hx : Within R x)
    (hf : ∀ a, Within R (f a)) : Within R (x >>= f) :=
  hx.comp hf (fun _ _ h => h) fun _ _ _ h h' => trans_of R h h'

theorem Total.bind {x : Exec ε α} {f : α → Exec ε β} (hx : Total x) (hf : ∀ a, Total (f a)) :
    Total (x >>= f) := by
  intro cpu
  rcases bind_cases x f cpu with ⟨e, he, -⟩ | ⟨a, -, hrun⟩
  · obtain ⟨a, ha⟩ := hx cpu
    rw [ha] at he
    cases he
  · rw [hrun]
    exact hf a _

theorem FailsFirst.of_total {x : ι → Exec ε α} (hx : ∀ i, Total (x i)) : FailsFirst x := by
  intro i cpu e he
  obtain ⟨a, ha⟩ := hx i cpu
  rw [ha] at he
  cases he

/-- What comes after a part that fails first must not fail. -/
theorem FailsFirst.bind {x : ι → Exec ε α} {f : ι → α → Exec ε β} (hx : FailsFirst x)
    (hf : ∀ i a, Total (f i a)) : FailsFirst fun i => x i >>= f i := by
  intro i cpu e he j
  rcases bind_cases (x i) (f i) cpu with ⟨e', he', hrun⟩ | ⟨a, -, hrun⟩
  · rw [hrun] at he
    cases he
    rw [bind_run, hx i cpu e he' j]
  · obtain ⟨b, hb⟩ := hf i a ((x i).run cpu).cpu
    rw [hrun] at he
    rw [hb] at he
    cases he

/-- What comes after a part that only reads may fail first in its turn. -/
theorem FailsFirst.reads_bind {x : Exec ε α} {f : ι → α → Exec ε β} (hx : Reads x)
    (hf : ∀ a, FailsFirst (f · a)) : FailsFirst fun i => x >>= f i := by
  intro i cpu e he j
  obtain ⟨hcpu, hevents⟩ := hx cpu
  rcases hrun : x.run cpu with ⟨e' | a, cpu', events⟩ <;>
    simp only [hrun] at hcpu hevents <;> subst hcpu hevents
  · rw [bind_run, hrun] at he ⊢
    cases he
    rfl
  · have hbind : ∀ k, (x >>= f k).run cpu' = (f k a).run cpu' := fun k => by
      rw [bind_run, hrun]
      rfl
    rw [hbind] at he ⊢
    exact hf a i cpu' e he j

/-! ## Results -/

theorem map_eq_ok_iff {x : Except ε α} {f : α → β} {b : β} :
    x.map f = .ok b ↔ ∃ a, x = .ok a ∧ f a = b := by
  cases x <;> simp [Except.map]

theorem map_eq_error_iff {x : Except ε α} {f : α → β} {e : ε} :
    x.map f = .error e ↔ x = .error e := by
  cases x <;> simp [Except.map]

theorem mapError_eq_ok_iff {ε' : Type} {x : Except ε α} {f : ε → ε'} {a : α} :
    x.mapError f = .ok a ↔ x = .ok a := by
  cases x with
  | error e =>
    change Except.error (f e) = .ok a ↔ Except.error e = .ok a
    simp
  | ok b =>
    change (Except.ok b : Except ε' α) = .ok a ↔ (Except.ok b : Except ε α) = .ok a
    simp

/-! ## Primitives -/

theorem Reads.within {x : Exec ε α} (hx : Reads x) : Within R x := fun cpu => by
  rw [(hx cpu).1]
  exact refl_of R cpu

theorem reads_pure (a : α) : Reads (pure a : Exec ε α) := fun _ => ⟨rfl, rfl⟩

theorem reads_state : Reads (state : Exec ε Cpu) := fun _ => ⟨rfl, rfl⟩

theorem reads_fail (e : ε) : Reads (fail e : Exec ε α) := fun _ => ⟨rfl, rfl⟩

theorem reads_operand (modrm : UInt8) : Reads (operand modrm) := by
  intro cpu
  rw [operand, state_bind_run]
  cases cpu.addressForm? modrm cpu.eip <;> exact ⟨rfl, rfl⟩

theorem within_emit (event : Event) : Within R (emit event : Exec ε Unit) :=
  fun cpu => refl_of R cpu

theorem within_attempt {f : Cpu → Except ε Cpu} (h : ∀ cpu cpu', f cpu = .ok cpu' → R cpu cpu') :
    Within R (attempt f) := by
  intro cpu
  rw [attempt_run]
  cases hf : f cpu with
  | error e => exact refl_of R cpu
  | ok cpu' => exact h cpu cpu' hf

theorem total_pure (a : α) : Total (pure a : Exec ε α) := fun _ => ⟨a, rfl⟩

theorem total_state : Total (state : Exec ε Cpu) := fun cpu => ⟨cpu, rfl⟩

theorem total_emitAll (events : List Event) : Total (emitAll events : Exec ε Unit) :=
  fun _ => ⟨(), rfl⟩

theorem total_emit (event : Event) : Total (emit event : Exec ε Unit) := fun _ => ⟨(), rfl⟩

theorem total_update (f : Cpu → Cpu) : Total (update f : Exec ε Unit) := fun _ => ⟨(), rfl⟩

/-- An attempt that fails leaves the state as it is. -/
theorem failsFirst_attempt (f : Cpu → Except ε Cpu) : FailsFirst fun _ : ι => attempt f := by
  intro _ cpu e he _
  rw [attempt_run] at he ⊢
  cases hf : f cpu with
  | error e' =>
    rw [hf] at he
    cases he
    rfl
  | ok cpu' =>
    rw [hf] at he
    cases he

theorem failsFirst_fail (e : ε) : FailsFirst fun _ : ι => (fail e : Exec ε α) := by
  intro _ cpu e' he _
  cases he
  rfl

end Ia32.Exec
