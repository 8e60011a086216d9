import Ia32.Proofs.BlockElements
import Ia32.Proofs.Dispatch

/-!
# Repetitions

A repeat prefix and a block operation are carried out one dispatch at a time: one for the prefix,
then one for every element, with EIP on the operation until the last of them.

* `dispatch_underway`: one dispatch does one element.
* `underway_after`, `finished_after`: **a repetition that nothing disturbs goes through its
  elements one dispatch at a time**, and ends past the operation.
* `succeeds_of_writable`: none of its dispatches fails if every element can be stored.
* `repeats`: **the same from the prefix on**, also for a repetition of none.
-/

namespace Ia32

open Exec

/-- The state after the dispatch of a prefix. -/
def Cpu.prefixed (cpu : Cpu) (kind : RepPrefix) : Cpu :=
  { cpu with rep := some kind, eip := cpu.eip + 1, retired := cpu.retired + 1 }

/-! ## One dispatch -/

theorem Handler.blockOperation_run (op : BlockOp) (linkage : Linkage) (cpu : Cpu) :
    (blockOperation.execute op.opcode linkage).run cpu =
      if cpu.rep.isSome ∧ cpu.ecx = 0 then ⟨.ok (), cpu.finishRepeat, []⟩
      else
        match op.element? cpu with
        | .ok cpu' => ⟨.ok (), op.countDown cpu', []⟩
        | .error violation => ⟨.error (.accessViolation violation), cpu, []⟩ := by
  have hop : BlockOp.ofOpcode? op.opcode = some op := by cases op <;> rfl
  rw [blockOperation]
  dsimp only
  rw [state_bind_run]
  split
  · rfl
  · rw [hop, bind_run, attempt_run]
    cases op.element? cpu <;> rfl

theorem Handler.repeatPrefix_run (kind : RepPrefix) (linkage : Linkage) (cpu : Cpu) :
    (repeatPrefix.execute kind.opcode linkage).run cpu =
      ⟨.ok (), { cpu with rep := some kind, eip := cpu.eip + 1 }, []⟩ := by
  cases kind <;> rfl

/-- Counting an element and retiring it, in either order. -/
theorem BlockOp.retire_countDown (op : BlockOp) {cpu counted : Cpu} {kind : RepPrefix}
    (hrep : cpu.rep = some kind) (hcounted : counted = (cpu.set .ecx (cpu.ecx - 1)).retire) :
    (op.countDown cpu).retire =
      if counted.ecx = 0 ∨ op.settled kind counted.flags = true then counted.finishRepeat
      else counted := by
  have hecx : counted.ecx = (cpu.set .ecx (cpu.ecx - 1)).ecx := by rw [hcounted]; rfl
  have hflags : counted.flags = (cpu.set .ecx (cpu.ecx - 1)).flags := by rw [hcounted]; rfl
  rw [countDown, hrep, hecx, hflags]
  simp only [Bool.or_eq_true, decide_eq_true_eq]
  split
  · rw [hcounted]
    rfl
  · rw [hcounted]

namespace InstructionSet

open BlockOp

variable {op : BlockOp} {kind : RepPrefix} {cpu : Cpu}

theorem standard_handler?_blockOp (op : BlockOp) :
    standard.handler? op.opcode = some .blockOperation := by
  rw [standard_handler?_eq]
  cases op <;> rfl

theorem standard_handler?_repPrefix (kind : RepPrefix) :
    standard.handler? kind.opcode = some .repeatPrefix := by
  rw [standard_handler?_eq]
  cases kind <;> rfl

/-- The dispatch of a prefix. -/
theorem dispatch_repPrefix (hopcode : cpu.opcode = kind.opcode) (linkage : Linkage) :
    (standard.dispatch linkage).run cpu =
      ⟨.ok (), cpu.prefixed kind, standard.preamble cpu⟩ := by
  have hhandler : standard.handler? cpu.opcode = some .repeatPrefix := by
    rw [hopcode, standard_handler?_repPrefix]
  rw [dispatch_run_keepRep linkage hhandler rfl, hopcode, Handler.repeatPrefix_run, concluded_ok,
    List.append_nil]
  rfl

/-- The dispatch of a block operation. -/
theorem dispatch_blockOp (hopcode : cpu.opcode = op.opcode) (linkage : Linkage) :
    (standard.dispatch linkage).run cpu =
      if cpu.rep.isSome ∧ cpu.ecx = 0 then ⟨.ok (), cpu.finishRepeat.retire, standard.preamble cpu⟩
      else
        match op.element? cpu with
        | .ok cpu' => ⟨.ok (), (op.countDown cpu').retire, standard.preamble cpu⟩
        | .error violation =>
          ⟨.error (.accessViolation violation), cpu, standard.preamble cpu⟩ := by
  have hhandler : standard.handler? cpu.opcode = some .blockOperation := by
    rw [hopcode, standard_handler?_blockOp]
  rw [dispatch_run_keepRep linkage hhandler rfl, hopcode, Handler.blockOperation_run]
  split
  · rw [concluded_ok, List.append_nil]
  · cases op.element? cpu with
    | error violation => rw [concluded_error, List.append_nil]
    | ok cpu' => rw [concluded_ok, List.append_nil]

/-- Nothing disturbs the first `m` elements of the repetition that `cpu` is about to start:
none of them stores over the opcode byte, and the loop does not end between them. -/
structure Undisturbed (op : BlockOp) (kind : RepPrefix) (cpu : Cpu) (m : Nat) : Prop where
  opcode : cpu.opcode = op.opcode
  rep : cpu.rep = some kind
  count : m ≤ cpu.ecx.toNat
  code : ∀ i < m, ¬ op.StoresAt cpu i cpu.eip
  goesOn : ∀ i, i + 1 < m → op.settled kind (op.flagsAfter cpu (i + 1)) = false

/-- Counting down `k` of at least as many elements. -/
theorem toNat_sub_ofNat {n : UInt32} {k : Nat} (hk : k ≤ n.toNat) :
    (n - UInt32.ofNat k).toNat = n.toNat - k := by
  have := n.toNat_lt
  rw [UInt32.toNat_sub, UInt32.toNat_ofNat']
  omega

section Dispatches

variable {m k : Nat} {cpu' : Cpu} (h : Undisturbed op kind cpu m)

include h

theorem Undisturbed.opcode_underway (hk : k ≤ m) (hcpu : op.Underway cpu k cpu') :
    cpu'.opcode = op.opcode := by
  rw [Cpu.opcode, hcpu.eip, hcpu.read8,
    contents_of_not_storesAt fun i hi => h.code i (Nat.lt_of_lt_of_le hi hk)]
  exact h.opcode

theorem Undisturbed.ecx_underway (hk : k ≤ m) (hcpu : op.Underway cpu k cpu') :
    cpu'.ecx = 0 ↔ k = cpu.ecx.toNat := by
  have hcount := h.count
  rw [hcpu.ecx, ← UInt32.toNat_inj, toNat_sub_ofNat (by omega)]
  simp only [UInt32.reduceToNat]
  omega

/-- The dispatch of the next element does it, or cannot store it and leaves everything. -/
theorem Undisturbed.dispatch_cases (hk : k < m) (hcpu : op.Underway cpu k cpu')
    (linkage : Linkage) :
    (∃ done, op.element? cpu' = .ok done ∧ (standard.dispatch linkage).run cpu' =
      ⟨.ok (), (op.countDown done).retire, standard.preamble cpu'⟩) ∨
    ∃ violation, op.element? cpu' = .error violation ∧ (standard.dispatch linkage).run cpu' =
      ⟨.error (.accessViolation violation), cpu', standard.preamble cpu'⟩ := by
  have hcount := h.count
  have hecx : cpu'.ecx ≠ 0 := by
    rw [Ne, h.ecx_underway (Nat.le_of_lt hk) hcpu]
    omega
  rw [dispatch_blockOp (h.opcode_underway (Nat.le_of_lt hk) hcpu), if_neg fun hend => hecx hend.2]
  cases op.element? cpu' with
  | ok done => exact .inl ⟨done, rfl, rfl⟩
  | error violation => exact .inr ⟨violation, rfl, rfl⟩

/-- **One dispatch does one element**, and ends the repetition if that was the last one. -/
theorem dispatch_underway (hk : k < m) (hcpu : op.Underway cpu k cpu') {linkage : Linkage}
    (hok : ((standard.dispatch linkage).run cpu').result = .ok ()) :
    ∃ next, op.Underway cpu (k + 1) next ∧
      ((standard.dispatch linkage).run cpu').cpu =
        if k + 1 = cpu.ecx.toNat ∨ op.settled kind (op.flagsAfter cpu (k + 1)) = true then
          next.finishRepeat
        else next := by
  rcases h.dispatch_cases hk hcpu linkage with ⟨done, helement, hrun⟩ | ⟨violation, -, hrun⟩
  · -- `k` elements before this one and this one make `k + 1`
    have hone := underway_one helement
    have hnext := hcpu.trans hone
    have hrep : done.rep = some kind := hone.rep.trans (hcpu.rep.trans h.rep)
    refine ⟨_, hnext, ?_⟩
    rw [hrun, retire_countDown op hrep rfl]
    simp only [h.ecx_underway hk hnext, hnext.flags]
  · rw [hrun] at hok
    cases hok

/-- An element that cannot be stored leaves the repetition where it stands. -/
theorem dispatch_underway_fault (hk : k < m) (hcpu : op.Underway cpu k cpu') {linkage : Linkage}
    {fault : Fault} (hfault : ((standard.dispatch linkage).run cpu').result = .error fault) :
    ((standard.dispatch linkage).run cpu').cpu = cpu' := by
  rcases h.dispatch_cases hk hcpu linkage with ⟨done, -, hrun⟩ | ⟨violation, -, hrun⟩
  · rw [hrun] at hfault
    cases hfault
  · rw [hrun]

/-- The dispatch of an element that can be stored succeeds. -/
theorem dispatch_underway_of_writable (hk : k < m) (hcpu : op.Underway cpu k cpu')
    (hwritable : cpu.memory.Writable (op.target cpu k) op.storeSize) (linkage : Linkage) :
    ((standard.dispatch linkage).run cpu').result = .ok () := by
  have hwritable' : cpu'.memory.Writable (op.target cpu' 0) op.storeSize := by
    intro a ha
    rw [hcpu.target_add] at ha
    rw [hcpu.protectionAt]
    exact hwritable a ha
  obtain ⟨done, hdone⟩ := element?_of_writable hwritable'
  rcases h.dispatch_cases hk hcpu linkage with ⟨_, -, hrun⟩ | ⟨violation, hrefused, -⟩
  · rw [hrun]
  · rw [hdone] at hrefused
    cases hrefused

end Dispatches

/-! ## The whole repetition -/

section Runs

variable {m k : Nat} {linkage : Nat → Linkage} (h : Undisturbed op kind cpu m)

include h

/-- **A repetition that nothing disturbs stands before element `k` after `k` dispatches**, as
long as they succeed. -/
theorem underway_after (hk : k < m) (hok : standard.Succeeds linkage cpu k) :
    op.Underway cpu k (standard.after linkage cpu k) := by
  induction k with
  | zero => exact .refl cpu
  | succ k ih =>
    have hcpu := ih (by omega) (hok.mono (Nat.le_succ k))
    obtain ⟨next, hnext, hrun⟩ := dispatch_underway h (by omega) hcpu (hok k (by omega))
    have hcount := h.count
    -- the loop does not end here: neither by the count nor by the comparison
    have hgoes : ¬ (k + 1 = cpu.ecx.toNat ∨
        op.settled kind (op.flagsAfter cpu (k + 1)) = true) := by
      rw [h.goesOn k hk]
      simp only [Bool.false_eq_true, or_false]
      omega
    rw [if_neg hgoes] at hrun
    rw [after, hrun]
    exact hnext

/-- **It ends past the operation after its last element.** -/
theorem finished_after (hm : 0 < m)
    (hlast : m = cpu.ecx.toNat ∨ op.settled kind (op.flagsAfter cpu m) = true)
    (hok : standard.Succeeds linkage cpu m) :
    op.Finished cpu m (standard.after linkage cpu m) := by
  -- all dispatches but the last leave the repetition underway
  obtain ⟨k, rfl⟩ : ∃ k, m = k + 1 := ⟨m - 1, by omega⟩
  have hcpu := underway_after h (Nat.lt_succ_self k) (hok.mono (Nat.le_succ k))
  obtain ⟨last, hreached, hrun⟩ :=
    dispatch_underway h (Nat.lt_succ_self k) hcpu (hok k (Nat.lt_succ_self k))
  rw [if_pos hlast] at hrun
  rw [after, hrun]
  exact hreached.finishRepeat

/-- No dispatch fails if none fails in a repetition that is still underway. -/
theorem succeeds_of_underway (hk : k ≤ m)
    (hstep : ∀ j < k, op.Underway cpu j (standard.after linkage cpu j) →
      ((standard.dispatch (linkage j)).run (standard.after linkage cpu j)).result = .ok ()) :
    standard.Succeeds linkage cpu k := by
  intro j
  -- the repetition is underway after `j` dispatches only because those before have succeeded
  induction j using Nat.strongRecOn with
  | ind j ih =>
    intro hj
    exact hstep j hj (underway_after h (by omega) fun i hi => ih i hi (by omega))

/-- **No dispatch fails if every element can be stored.** -/
theorem succeeds_of_writable
    (hwritable : ∀ i < m, cpu.memory.Writable (op.target cpu i) op.storeSize) :
    standard.Succeeds linkage cpu m :=
  succeeds_of_underway h (Nat.le_refl m) fun j hj hcpu =>
    dispatch_underway_of_writable h hj hcpu (hwritable j hj) (linkage j)

/-- No dispatch fails if no element is refused. -/
theorem succeeds_of_not_refused (hk : k ≤ m)
    (hnot : ∀ j < k, ∀ violation, ((standard.dispatch (linkage j)).run
      (standard.after linkage cpu j)).result ≠ .error (.accessViolation violation)) :
    standard.Succeeds linkage cpu k := by
  refine succeeds_of_underway h hk fun j hj hcpu => ?_
  rcases h.dispatch_cases (Nat.lt_of_lt_of_le hj hk) hcpu (linkage j) with
    ⟨done, -, hrun⟩ | ⟨violation, -, hrun⟩
  · rw [hrun]
  · exact absurd (by rw [hrun]) (hnot j hj violation)

end Runs

/-! ## From the prefix on -/

/-- A prefix and the operation after it do `m` elements, in one dispatch for the prefix and one
for every element, or one to find that there is none. -/
structure Repeats (linkage : Nat → Linkage) (op : BlockOp) (cpu : Cpu) (m : Nat) : Prop where
  succeeds : standard.Succeeds linkage cpu (1 + max m 1)
  stays : ∀ j, 0 < j → j < 1 + max m 1 → (standard.after linkage cpu j).eip = cpu.eip + 1
  reached : op.Reached cpu m (standard.after linkage cpu (1 + max m 1))
  eip : (standard.after linkage cpu (1 + max m 1)).eip = cpu.eip + 2
  rep : (standard.after linkage cpu (1 + max m 1)).rep = none
  retired : (standard.after linkage cpu (1 + max m 1)).retired =
    cpu.retired + UInt64.ofNat (1 + max m 1)
  protectionAt : ∀ a, (standard.after linkage cpu (1 + max m 1)).memory.protectionAt a =
    cpu.memory.protectionAt a
  memory : op.storeSize = 0 → (standard.after linkage cpu (1 + max m 1)).memory = cpu.memory

section Prefixed

variable {m : Nat} {linkage : Nat → Linkage}

/-- The part of a repetition that comes after the prefix, seen from before it. -/
theorem Repeats.of_finished
    (hsucceeds : standard.Succeeds linkage cpu (1 + max m 1))
    (hstays : ∀ j, 0 < j → j < 1 + max m 1 → (standard.after linkage cpu j).eip = cpu.eip + 1)
    {rep : Option RepPrefix} {retired : UInt64}
    (hretired : retired + UInt64.ofNat m = cpu.retired + UInt64.ofNat (1 + max m 1))
    (h : op.Finished { cpu with rep, eip := cpu.eip + 1, retired } m
      (standard.after linkage cpu (1 + max m 1))) : Repeats linkage op cpu m where
  succeeds := hsucceeds
  stays := hstays
  reached := by
    have hstart : op.Reached cpu 0 { cpu with rep, eip := cpu.eip + 1, retired } :=
      .of_same rfl rfl (fun _ => rfl) rfl rfl
    simpa only [Nat.zero_add] using hstart.trans h.toReached
  eip := by
    rw [h.eip]
    grind
  rep := h.rep
  retired := h.retired.trans hretired
  protectionAt := h.protectionAt
  memory := h.memory

variable (hkind : cpu.opcode = kind.opcode)

include hkind

theorem after_prefixed (linkage : Nat → Linkage) (k : Nat) : standard.after linkage cpu (1 + k) =
    standard.after (fun i => linkage (1 + i)) (cpu.prefixed kind) k := by
  rw [after_add, after, after, dispatch_repPrefix hkind]

/-- All dispatches succeed if those after the prefix do. -/
theorem succeeds_of_prefixed
    (h : standard.Succeeds (fun i => linkage (1 + i)) (cpu.prefixed kind) m) :
    standard.Succeeds linkage cpu (1 + m) := by
  have hfirst : standard.Succeeds linkage cpu 1 := by
    intro j hj
    obtain rfl : j = 0 := by omega
    rw [after, dispatch_repPrefix hkind]
  have hafter : standard.after linkage cpu 1 = cpu.prefixed kind := after_prefixed hkind linkage 0
  refine hfirst.add ?_
  rw [hafter]
  exact h

/-- A repetition of none takes a dispatch to find that there is nothing to do. -/
theorem repeats_none (hop : cpu.codeByte 1 = op.opcode) (hecx : cpu.ecx = 0) :
    Repeats linkage op cpu 0 := by
  have hopcode : (cpu.prefixed kind).opcode = op.opcode := hop
  -- the second dispatch finds the count at zero and takes the prefix away
  have hdispatch : (standard.dispatch (linkage 1)).run (cpu.prefixed kind) =
      ⟨.ok (), (cpu.prefixed kind).retire.finishRepeat, standard.preamble (cpu.prefixed kind)⟩ := by
    rw [dispatch_blockOp hopcode, if_pos ⟨rfl, hecx⟩]
    rfl
  have hfirst : standard.after linkage cpu 1 = cpu.prefixed kind := after_prefixed hkind linkage 0
  have hfinal : standard.after linkage cpu (1 + 1) = (cpu.prefixed kind).retire.finishRepeat := by
    rw [after, hfirst, hdispatch]
  have hfinished :
      op.Finished (cpu.prefixed kind).retire 0 (standard.after linkage cpu (1 + max 0 1)) := by
    rw [Nat.zero_max, hfinal]
    exact (Underway.refl _).finishRepeat
  refine .of_finished ?_ (fun j hpos hj => ?_) ?_ hfinished
  · refine succeeds_of_prefixed hkind fun j hj => ?_
    obtain rfl : j = 0 := by omega
    rw [after, hdispatch]
  · obtain rfl : j = 1 := by omega
    rw [hfirst]
    rfl
  · change cpu.retired + 1 + 1 + 0 = cpu.retired + 2
    grind

/-- **A repetition from its prefix on.** It goes on to `m` elements, and ends there by the count
or by a comparison. -/
theorem repeats (hop : cpu.codeByte 1 = op.opcode) (hcount : m ≤ cpu.ecx.toNat)
    (hcode : ∀ i < m, ¬ op.StoresAt cpu i (cpu.eip + 1))
    (hgoesOn : ∀ i, i + 1 < m → op.settled kind (op.flagsAfter cpu (i + 1)) = false)
    (hlast : m = cpu.ecx.toNat ∨ 0 < m ∧ op.settled kind (op.flagsAfter cpu m) = true)
    (hwritable : ∀ i < m, cpu.memory.Writable (op.target cpu i) op.storeSize) :
    Repeats linkage op cpu m := by
  obtain rfl | hm := Nat.eq_zero_or_pos m
  · refine repeats_none hkind hop (UInt32.toNat_inj.mp ?_)
    simp only [UInt32.reduceToNat]
    omega
  -- what follows the prefix is a repetition that starts in the prefixed state
  have hmax : max m 1 = m := Nat.max_eq_left hm
  have h : Undisturbed op kind (cpu.prefixed kind) m := ⟨hop, rfl, hcount, hcode, hgoesOn⟩
  have hok : standard.Succeeds (fun i => linkage (1 + i)) (cpu.prefixed kind) m :=
    succeeds_of_writable h hwritable
  have hfinished :
      op.Finished (cpu.prefixed kind) m (standard.after linkage cpu (1 + max m 1)) := by
    rw [hmax, after_prefixed hkind]
    exact finished_after h hm (hlast.imp_right And.right) hok
  refine .of_finished ?_ (fun j hpos hj => ?_) ?_ hfinished
  · rw [hmax]
    exact succeeds_of_prefixed hkind hok
  · obtain ⟨i, rfl⟩ : ∃ i, j = 1 + i := ⟨j - 1, by omega⟩
    rw [after_prefixed hkind]
    exact (underway_after h (by omega) (hok.mono (by omega))).eip
  · rw [hmax, UInt64.ofNat_add, ← UInt64.add_assoc]
    rfl

end Prefixed

end InstructionSet

end Ia32
