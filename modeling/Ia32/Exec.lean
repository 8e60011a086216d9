import Ia32.Event

/-!
# Effects on the processor

A computation of type `Exec ε α` runs on a processor state. It ends in a value or in
an error, leaves a state in both cases, and has made events happen. An error gives the
state as it was when it was raised: nothing is rolled back.

The monad laws hold (`Exec.instLawfulMonad`), and each primitive has an equation for its
run (`Exec.bind_run`, `Exec.attempt_run`, ...).
-/

namespace Ia32

/-- How a computation ends: its value or error, the state it leaves, and the events
that it has made happen, in order. -/
structure Outcome (ε α : Type) where
  result : Except ε α
  cpu : Cpu
  events : List Event

/-- A computation on a processor state. -/
def Exec (ε α : Type) : Type := Cpu → Outcome ε α

namespace Exec

variable {ε α β : Type}

/-- Runs a computation. -/
def run (x : Exec ε α) (cpu : Cpu) : Outcome ε α := x cpu

/-- Ends with a value and leaves all as it is. -/
protected def pure (a : α) : Exec ε α := fun cpu => ⟨.ok a, cpu, []⟩

/-- Runs `x` and, on its value, `f`. -/
protected def bind (x : Exec ε α) (f : α → Exec ε β) : Exec ε β := fun cpu =>
  match x cpu with
  | ⟨.ok a, cpu', events⟩ =>
    let rest := f a cpu'
    { rest with events := events ++ rest.events }
  | ⟨.error e, cpu', events⟩ => ⟨.error e, cpu', events⟩

instance : Monad (Exec ε) where
  pure := Exec.pure
  bind := Exec.bind

/-- The present state. -/
def state : Exec ε Cpu := fun cpu => ⟨.ok cpu, cpu, []⟩

/-- Changes the state. -/
def update (f : Cpu → Cpu) : Exec ε Unit := fun cpu => ⟨.ok (), f cpu, []⟩

/-- Changes the state and gives a value. -/
def transform (f : Cpu → α × Cpu) : Exec ε α := fun cpu => ⟨.ok (f cpu).1, (f cpu).2, []⟩

/-- Ends with an error and leaves the state as it is. -/
def fail (e : ε) : Exec ε α := fun cpu => ⟨.error e, cpu, []⟩

/-- Makes an event happen. -/
def emit (event : Event) : Exec ε Unit := fun cpu => ⟨.ok (), cpu, [event]⟩

/-- Makes some events happen. -/
def emitAll (events : List Event) : Exec ε Unit := fun cpu => ⟨.ok (), cpu, events⟩

/-- Changes the state, or ends with an error and leaves it as it is. -/
def attempt (f : Cpu → Except ε Cpu) : Exec ε Unit := fun cpu =>
  match f cpu with
  | .ok cpu' => ⟨.ok (), cpu', []⟩
  | .error e => ⟨.error e, cpu, []⟩

/-- The value of a calculation that may fail. -/
def liftExcept : Except ε α → Exec ε α
  | .ok a => Exec.pure a
  | .error e => fail e

/-- Changes the memory if that is allowed; `refuse` turns a refused store into an error. -/
def store (refuse : AccessViolation → ε)
    (change : Memory → Except AccessViolation Memory) : Exec ε Unit :=
  attempt fun cpu =>
    match change cpu.memory with
    | .ok memory => .ok { cpu with memory }
    | .error violation => .error (refuse violation)

@[simp] theorem pure_run (a : α) (cpu : Cpu) : (pure a : Exec ε α).run cpu = ⟨.ok a, cpu, []⟩ := rfl

theorem bind_run (x : Exec ε α) (f : α → Exec ε β) (cpu : Cpu) :
    (x >>= f).run cpu =
      match x.run cpu with
      | ⟨.ok a, cpu', events⟩ =>
        { (f a).run cpu' with events := events ++ ((f a).run cpu').events }
      | ⟨.error e, cpu', events⟩ => ⟨.error e, cpu', events⟩ := rfl

@[simp] theorem state_run (cpu : Cpu) : (state : Exec ε Cpu).run cpu = ⟨.ok cpu, cpu, []⟩ := rfl

@[simp] theorem update_run (f : Cpu → Cpu) (cpu : Cpu) :
    (update f : Exec ε Unit).run cpu = ⟨.ok (), f cpu, []⟩ := rfl

@[simp] theorem transform_run (f : Cpu → α × Cpu) (cpu : Cpu) :
    (transform f : Exec ε α).run cpu = ⟨.ok (f cpu).1, (f cpu).2, []⟩ := rfl

@[simp] theorem fail_run (e : ε) (cpu : Cpu) :
    (fail e : Exec ε α).run cpu = ⟨.error e, cpu, []⟩ := rfl

@[simp] theorem emit_run (event : Event) (cpu : Cpu) :
    (emit event : Exec ε Unit).run cpu = ⟨.ok (), cpu, [event]⟩ := rfl

@[simp] theorem emitAll_run (events : List Event) (cpu : Cpu) :
    (emitAll events : Exec ε Unit).run cpu = ⟨.ok (), cpu, events⟩ := rfl

theorem attempt_run (f : Cpu → Except ε Cpu) (cpu : Cpu) :
    (attempt f).run cpu =
      match f cpu with
      | .ok cpu' => ⟨.ok (), cpu', []⟩
      | .error e => ⟨.error e, cpu, []⟩ := rfl

theorem ext {x y : Exec ε α} (h : ∀ cpu, x.run cpu = y.run cpu) : x = y := funext h

private theorem id_map_exec (x : Exec ε α) : id <$> x = x := ext fun cpu => by
  show (x >>= fun a => pure a).run cpu = _
  rw [bind_run]
  rcases x.run cpu with ⟨_ | a, cpu', events⟩ <;> simp

private theorem pure_bind_exec (a : α) (f : α → Exec ε β) : pure a >>= f = f a := rfl

private theorem bind_assoc_exec {γ : Type} (x : Exec ε α) (f : α → Exec ε β) (g : β → Exec ε γ) :
    x >>= f >>= g = x >>= fun a => f a >>= g := ext fun cpu => by
  simp only [bind_run]
  rcases x.run cpu with ⟨_ | a, cpu', events⟩
  · rfl
  · rcases h : (f a).run cpu' with ⟨_ | b, cpu'', events'⟩ <;> simp [h]

instance instLawfulMonad : LawfulMonad (Exec ε) :=
  LawfulMonad.mk' (Exec ε) id_map_exec pure_bind_exec bind_assoc_exec

end Exec

end Ia32
