import Ia32.Proofs.HostCall
import Mathlib.Data.List.Induction

/-!
# The stack of the guest

The stack is a part of the guest's memory that grows down, around the bottom of the address space
if need be, and is aligned to nothing.

* `topDwords_pushed`: a push puts its dword on top of the others, which stay as they are.
* `pushAll_cases`: pushes succeed one after the other, up to the first that fails.
* `popAll_run`: pops take the dwords on top of the stack, from the top down.
* `pushAll_lifo`: **what has been pushed is popped in the reverse order**, and the rest of the
  state is as it was, as long as the dwords fit into the address space.
-/

namespace Ia32

variable {a e v : UInt32} {n : Nat}

/-! ## The bytes below an address -/

/-- The address is one of the `size` bytes below `e`. -/
def Below (e : UInt32) (size : Nat) (a : UInt32) : Prop := ∃ i < size, a = e - UInt32.ofNat (i + 1)

theorem below_four_iff : Below e 4 a ↔ a - (e - 4) < 4 := by
  rw [Memory.sub_lt_four_iff]
  constructor
  · rintro ⟨i, hi, rfl⟩
    obtain rfl | rfl | rfl | rfl : i = 0 ∨ i = 1 ∨ i = 2 ∨ i = 3 := by omega
    all_goals grind
  · rintro (rfl | rfl | rfl | rfl)
    · exact ⟨3, by decide, by grind⟩
    · exact ⟨2, by decide, by grind⟩
    · exact ⟨1, by decide, by grind⟩
    · exact ⟨0, by decide, by grind⟩

/-- One dword further up. -/
theorem add_ofNat_succ (e : UInt32) (i : Nat) :
    e + UInt32.ofNat (4 * (i + 1)) = e + 4 + UInt32.ofNat (4 * i) := by
  rw [Nat.mul_succ, UInt32.ofNat_add]
  grind

/-- One dword further down. -/
theorem sub_ofNat_add_four (e : UInt32) (i : Nat) :
    e - UInt32.ofNat (4 + i) = e - 4 - UInt32.ofNat i := by
  rw [UInt32.ofNat_add]
  grind

/-- The bytes of `n + 1` dwords are those of the first one, and those of `n` dwords below it. -/
theorem below_succ_iff : Below e (4 * (n + 1)) a ↔ Below e 4 a ∨ Below (e - 4) (4 * n) a := by
  constructor
  · rintro ⟨i, hi, rfl⟩
    by_cases hfirst : i < 4
    · exact .inl ⟨i, hfirst, rfl⟩
    · obtain ⟨j, rfl⟩ : ∃ j, i = 4 + j := ⟨i - 4, by omega⟩
      exact .inr ⟨j, by omega, by rw [Nat.add_assoc, sub_ofNat_add_four]⟩
  · rintro (⟨i, hi, rfl⟩ | ⟨j, hj, rfl⟩)
    · exact ⟨i, by omega, rfl⟩
    · exact ⟨4 + j, by omega, by rw [Nat.add_assoc, sub_ofNat_add_four]⟩

namespace Cpu

variable {cpu : Cpu}

/-! ## What pushes leave -/

/-- The state after a push that succeeds. -/
def pushed (cpu : Cpu) (v : UInt32) : Cpu :=
  { cpu with memory := cpu.memory.store32 (cpu.esp - 4) v }.set .esp (cpu.esp - 4)

/-- The state after pushes that succeed. -/
def pushedAll (cpu : Cpu) (values : List UInt32) : Cpu := values.foldl pushed cpu

@[simp] theorem esp_pushed (cpu : Cpu) (v : UInt32) : (cpu.pushed v).esp = cpu.esp - 4 := rfl

@[simp] theorem protectionAt_pushed (cpu : Cpu) (v a : UInt32) :
    (cpu.pushed v).memory.protectionAt a = cpu.memory.protectionAt a := rfl

theorem read8_pushed (h : ¬ Below cpu.esp 4 a) :
    (cpu.pushed v).memory.read8 a = cpu.memory.read8 a := by
  rw [below_four_iff, UInt32.not_lt] at h
  exact cpu.memory.read8_store32_of_le _ _ h

/-- The `n` dwords on top of the stack, from the top down. -/
def topDwords (cpu : Cpu) (n : Nat) : List UInt32 :=
  (List.range n).map fun i => cpu.memory.read32 (cpu.esp + UInt32.ofNat (4 * i))

theorem topDwords_succ (cpu : Cpu) (n : Nat) : cpu.topDwords (n + 1) =
    cpu.memory.read32 cpu.esp :: (cpu.set .esp (cpu.esp + 4)).topDwords n := by
  have hfirst : cpu.esp + UInt32.ofNat (4 * 0) = cpu.esp := UInt32.add_zero _
  unfold topDwords
  rw [List.range_succ_eq_map, List.map_cons, List.map_map, hfirst]
  refine congrArg (_ :: ·) (List.map_congr_left fun i _ => ?_)
  exact congrArg cpu.memory.read32 (add_ofNat_succ cpu.esp i)

/-- A push puts its dword on top of the others. -/
theorem topDwords_pushed (cpu : Cpu) (v : UInt32) (hn : 4 * (n + 1) ≤ 0x100000000) :
    (cpu.pushed v).topDwords (n + 1) = v :: cpu.topDwords n := by
  have htop : (cpu.pushed v).memory.read32 (cpu.pushed v).esp = v :=
    cpu.memory.read32_store32 (cpu.esp - 4) v
  have hesp : (cpu.pushed v).esp + 4 = cpu.esp := UInt32.sub_add_cancel _ _
  rw [topDwords_succ, htop, hesp]
  -- the others are the ones from before, as long as the new one does not meet the last of them
  refine congrArg (v :: ·) (List.map_congr_left fun i hi => ?_)
  have hfit : 4 * i + 8 ≤ 0x100000000 := by
    have := List.mem_range.mp hi
    omega
  exact cpu.read32_called v hfit

theorem pushedAll_concat (cpu : Cpu) (values : List UInt32) (v : UInt32) :
    cpu.pushedAll (values ++ [v]) = (cpu.pushedAll values).pushed v := by
  unfold pushedAll
  rw [List.foldl_append, List.foldl_cons, List.foldl_nil]

/-- On top of the stack is what was pushed last. -/
theorem topDwords_pushedAll (cpu : Cpu) {values : List UInt32}
    (hfit : 4 * values.length ≤ 0x100000000) :
    (cpu.pushedAll values).topDwords values.length = values.reverse := by
  -- the last of the dwords is the first one on the stack, so they are taken from the end
  induction values using List.reverseRecOn with
  | nil => rfl
  | append_singleton values v ih =>
    rw [List.length_append, List.length_singleton] at hfit ⊢
    rw [pushedAll_concat, topDwords_pushed _ v hfit, ih (by omega), List.reverse_append,
      List.reverse_singleton, List.singleton_append]

theorem esp_pushedAll (cpu : Cpu) (values : List UInt32) :
    (cpu.pushedAll values).esp = cpu.esp - UInt32.ofNat (4 * values.length) := by
  induction values generalizing cpu with
  | nil => exact (UInt32.sub_zero _).symm
  | cons v values ih =>
    show ((cpu.pushed v).pushedAll values).esp = _
    rw [ih, List.length_cons, Nat.mul_succ, Nat.add_comm, sub_ofNat_add_four, esp_pushed]

theorem read8_pushedAll {values : List UInt32} (h : ¬ Below cpu.esp (4 * values.length) a) :
    (cpu.pushedAll values).memory.read8 a = cpu.memory.read8 a := by
  induction values generalizing cpu with
  | nil => rfl
  | cons v values ih =>
    rw [List.length_cons, below_succ_iff, not_or] at h
    exact (ih h.2).trans (read8_pushed h.1)

theorem protectionAt_pushedAll (cpu : Cpu) (values : List UInt32) (a : UInt32) :
    (cpu.pushedAll values).memory.protectionAt a = cpu.memory.protectionAt a := by
  induction values generalizing cpu with
  | nil => rfl
  | cons v values ih => exact (ih (cpu.pushed v)).trans (protectionAt_pushed cpu v a)

/-- Pushes move the stack pointer and change the memory, and that is all. -/
theorem pushedAll_eq (cpu : Cpu) (values : List UInt32) :
    cpu.pushedAll values =
      { cpu with memory := (cpu.pushedAll values).memory }.set .esp (cpu.pushedAll values).esp := by
  induction values using List.reverseRecOn with
  | nil => rfl
  | append_singleton values v ih =>
    rw [pushedAll_concat]
    conv_lhs => rw [ih]
    rfl

theorem set_esp_pushedAll (cpu : Cpu) (values : List UInt32) :
    (cpu.pushedAll values).set .esp cpu.esp =
      { cpu with memory := (cpu.pushedAll values).memory } := by
  conv_lhs => rw [pushedAll_eq]
  rfl

end Cpu

/-! ## Pushes and pops -/

namespace Exec

variable {cpu : Cpu}

/-- Pushes dwords, one after the other. -/
def pushAll : List UInt32 → Exec Fault Unit
  | [] => pure ()
  | v :: values => do
    push v
    pushAll values

/-- Pops `n` dwords, the one on top first. -/
def popAll : Nat → Exec Fault (List UInt32)
  | 0 => pure []
  | n + 1 => do
    let v ← pop
    let values ← popAll n
    return v :: values

theorem push_run_of_writable (h : cpu.memory.Writable (cpu.esp - 4) 4) (v : UInt32) :
    (push v).run cpu = ⟨.ok (), cpu.pushed v, []⟩ := by
  rw [push, attempt_run, Cpu.push?_eq_ok_iff.mpr ⟨h, rfl⟩]
  rfl

/-- A push that fails leaves the state as it is. -/
theorem push_run_of_not_writable (h : ¬ cpu.memory.Writable (cpu.esp - 4) 4) (v : UInt32) :
    ∃ fault, (push v).run cpu = ⟨.error fault, cpu, []⟩ := by
  rw [push, attempt_run]
  cases hpush : cpu.push? v with
  | error violation => exact ⟨_, rfl⟩
  | ok cpu' => exact absurd (Cpu.push?_eq_ok_iff.mp hpush).1 h

theorem pushAll_run_cons (h : cpu.memory.Writable (cpu.esp - 4) 4) (v : UInt32)
    (values : List UInt32) :
    (pushAll (v :: values)).run cpu = (pushAll values).run (cpu.pushed v) := by
  rw [pushAll, bind_run, push_run_of_writable h]
  rfl

/-- **Pushes succeed one after the other**, if they all find room, or up to the first that does
not. -/
theorem pushAll_cases (values : List UInt32) (cpu : Cpu) :
    (∀ a, Below cpu.esp (4 * values.length) a → cpu.memory.protectionAt a = .readWrite) ∧
        (pushAll values).run cpu = ⟨.ok (), cpu.pushedAll values, []⟩ ∨
      (¬ ∀ a, Below cpu.esp (4 * values.length) a → cpu.memory.protectionAt a = .readWrite) ∧
        ∃ before v after fault, values = before ++ v :: after ∧
          (pushAll before).run cpu = ⟨.ok (), cpu.pushedAll before, []⟩ ∧
          (push v).run (cpu.pushedAll before) = ⟨.error fault, cpu.pushedAll before, []⟩ ∧
          (pushAll values).run cpu = ⟨.error fault, cpu.pushedAll before, []⟩ := by
  induction values generalizing cpu with
  | nil =>
    refine .inl ⟨?_, rfl⟩
    rintro a ⟨i, hi, -⟩
    simp at hi
  | cons v values ih =>
    -- either there is no room for the first dword, or the others are pushed below it
    simp only [List.length_cons, below_succ_iff, or_imp, forall_and]
    by_cases hroom : cpu.memory.Writable (cpu.esp - 4) 4
    · have hfirst : ∀ a, Below cpu.esp 4 a → cpu.memory.protectionAt a = .readWrite :=
        fun a ha => hroom a (below_four_iff.mp ha)
      rcases ih (cpu.pushed v) with ⟨hrest, hrun⟩ | ⟨hrest, before, w, after, fault, rfl, hbefore,
        hpush, hrun⟩
      · exact .inl ⟨⟨hfirst, hrest⟩, (pushAll_run_cons hroom v values).trans hrun⟩
      · refine .inr ⟨fun h => hrest h.2, v :: before, w, after, fault, rfl, ?_, hpush, ?_⟩
        · exact (pushAll_run_cons hroom v before).trans hbefore
        · exact (pushAll_run_cons hroom v _).trans hrun
    · obtain ⟨fault, hpush⟩ := push_run_of_not_writable hroom v
      refine .inr ⟨fun h => hroom fun a ha => h.1 a (below_four_iff.mpr ha), [], v, values, fault,
        rfl, rfl, hpush, ?_⟩
      rw [pushAll, bind_run, hpush]
      rfl

/-- Pops take the dwords on top of the stack. -/
theorem popAll_run (n : Nat) (cpu : Cpu) : (popAll n).run cpu =
    ⟨.ok (cpu.topDwords n), cpu.set .esp (cpu.esp + UInt32.ofNat (4 * n)), []⟩ := by
  induction n generalizing cpu with
  | zero =>
    have hesp : cpu.esp + UInt32.ofNat (4 * 0) = cpu.esp := UInt32.add_zero _
    rw [hesp]
    rfl
  | succ n ih =>
    -- the first pop takes the top dword, and the others go on four bytes above
    rw [popAll, bind_run, pop, transform_run]
    simp only [bind_run]
    rw [ih, Cpu.topDwords_succ, add_ofNat_succ]
    rfl

/-- **What has been pushed is popped in the reverse order.** Some dwords are pushed one after the
other, no more than fit into the address space. The stack may be anywhere, it may wrap around the
bottom of the address space, and its dwords may straddle pages.

* All pushes succeed if the bytes that they take below the stack pointer lie on writable pages,
  and only then.
* If they do, the stack pointer is lower by four for each of them, and of the rest of the state no
  more than these bytes has changed. As many pops return the dwords in the reverse order, and the
  stack pointer to where it was.
* If they do not, those before the first push that fails have taken place, and nothing else. -/
theorem pushAll_lifo (values : List UInt32) (hfit : 4 * values.length ≤ 0x100000000)
    (cpu : Cpu) :
    let size := 4 * values.length
    let outcome := (pushAll values).run cpu
    (outcome.result = .ok () ↔
      ∀ a, Below cpu.esp size a → cpu.memory.protectionAt a = .readWrite) ∧
    (outcome.result = .ok () →
      outcome.cpu = { cpu with memory := outcome.cpu.memory }.set .esp
        (cpu.esp - UInt32.ofNat size) ∧
      (∀ a, ¬ Below cpu.esp size a → outcome.cpu.memory.read8 a = cpu.memory.read8 a) ∧
      (∀ a, outcome.cpu.memory.protectionAt a = cpu.memory.protectionAt a) ∧
      (popAll values.length).run outcome.cpu =
        ⟨.ok values.reverse, { cpu with memory := outcome.cpu.memory }, []⟩) ∧
    ∀ fault, outcome.result = .error fault →
      ∃ before v after, values = before ++ v :: after ∧
        (pushAll before).run cpu = ⟨.ok (), outcome.cpu, []⟩ ∧
        ((push v).run outcome.cpu).result = .error fault := by
  intro size outcome
  rcases pushAll_cases values cpu with ⟨hroom, hrun⟩ | ⟨hroom, before, v, after, fault, hvalues,
    hbefore, hpush, hrun⟩
  · have houtcome : outcome = _ := hrun
    rw [houtcome]
    refine ⟨iff_of_true rfl hroom, fun _ => ⟨?_, fun a ha => Cpu.read8_pushedAll ha,
      cpu.protectionAt_pushedAll values, ?_⟩, ?_⟩
    · rw [← cpu.esp_pushedAll]
      exact cpu.pushedAll_eq values
    · rw [popAll_run, cpu.topDwords_pushedAll hfit, cpu.esp_pushedAll,
        UInt32.sub_add_cancel, cpu.set_esp_pushedAll]
    · intro fault herror
      cases herror
  · have houtcome : outcome = _ := hrun
    rw [houtcome]
    have hfailed : Except.error fault ≠ (.ok () : Except Fault Unit) := by
      intro hok
      cases hok
    refine ⟨iff_of_false hfailed hroom, fun hok => absurd hok hfailed, ?_⟩
    intro fault' herror
    cases herror
    exact ⟨before, v, after, hvalues, hbefore, congrArg Outcome.result hpush⟩

/-- A stack that is neither aligned nor far from the bottom of the address space. -/
def shallowStack : Cpu where
  registers := { esp := 6 }

/-- The second of the dwords lies around the bottom of the address space. -/
theorem pushAll_lifo_shallowStack :
    let outcome := (pushAll [1, 2, 3]).run shallowStack
    outcome.result = .ok () ∧ outcome.cpu.esp = 0xfffffffa ∧
      ((popAll 3).run outcome.cpu).result = .ok [3, 2, 1] := by
  intro outcome
  obtain ⟨hroom, hlifo, -⟩ := pushAll_lifo [1, 2, 3] (by decide) shallowStack
  have hok : outcome.result = .ok () := hroom.mpr fun a _ => by simp [shallowStack]
  obtain ⟨hstate, -, -, hpop⟩ := hlifo hok
  refine ⟨hok, ?_, congrArg Outcome.result hpop⟩
  exact congrArg Cpu.esp hstate

end Exec

end Ia32
