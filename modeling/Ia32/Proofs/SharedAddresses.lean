import Ia32.Proofs.HostCall
import Ia32.Proofs.SymbolTable

/-!
# Names that share an address

Several names may be bound to one address, which has room for one of them in the look-up by
address. A name that is bound elsewhere clears its former address, whichever name is found there.

* `vacated_concat_iff`: what one more entry does to an address.
* `not_vacated_of_nodup`: only a name that is bound again vacates an address.
* `name?_ofList_eq_none_iff`: an address has no name if it never had one, or if a name has been
  moved away from it since it was last given one (`Vacated`).
* `dispatch_bound`: **a call of a bound address is offered to the emulators, under a name of the
  address, unless the address has been vacated.**
-/

namespace Ia32

open Exec

namespace Imports

variable {entries : List (String × UInt32)} {name : String} {a : UInt32}

/-- A name has been moved away from the address, and none has been bound to it since. -/
def Vacated (entries : List (String × UInt32)) (a : UInt32) : Prop :=
  ∃ before other b after, entries = before ++ (other, b) :: after ∧ b ≠ a ∧
    (ofList before).address? other = some a ∧ a ∉ after.map Prod.snd

/-- An entry vacates the address that its name has had, and no other one; the address that it
gives to its name is not vacated. -/
theorem vacated_concat_iff {b : UInt32} : Vacated (entries ++ [(name, b)]) a ↔
    b ≠ a ∧ ((ofList entries).address? name = some a ∨ Vacated entries a) := by
  constructor
  · rintro ⟨before, other, b', after, hsplit, hb', hother, hafter⟩
    -- the entry that vacates the address is the last one, or one before it
    obtain rfl | ⟨after, last, rfl⟩ := List.eq_nil_or_concat after
    · obtain ⟨rfl, hlast⟩ := List.append_inj' hsplit rfl
      cases hlast
      exact ⟨hb', .inl hother⟩
    · rw [List.concat_eq_append] at hsplit hafter
      rw [← List.cons_append, ← List.append_assoc] at hsplit
      obtain ⟨rfl, hlast⟩ := List.append_inj' hsplit rfl
      cases hlast
      rw [List.map_append, List.mem_append, not_or] at hafter
      have hb : a ≠ b := by simpa using hafter.2
      exact ⟨hb.symm, .inr ⟨before, other, b', after, rfl, hb', hother, hafter.1⟩⟩
  · rintro ⟨hb, hname | ⟨before, other, b', after, rfl, hb', hother, hafter⟩⟩
    · exact ⟨entries, name, b, [], rfl, hb, hname, List.not_mem_nil⟩
    · refine ⟨before, other, b', after ++ [(name, b)], by simp, hb', hother, ?_⟩
      rw [List.map_append, List.mem_append, not_or]
      exact ⟨hafter, by simpa using hb.symm⟩

/-- Names that are bound only once vacate no address, whether they share addresses or not. -/
theorem not_vacated_of_nodup (h : (entries.map Prod.fst).Nodup) : ¬ Vacated entries a := by
  rintro ⟨before, other, b, after, rfl, -, hother, -⟩
  have hmem : other ∈ before.map Prod.fst := isSome_address?_ofList.mp (by rw [hother]; rfl)
  rw [List.map_append, List.map_cons] at h
  exact List.disjoint_of_nodup_append h hmem List.mem_cons_self

/-- **An address has no name if it never had one, or if it has been vacated.** -/
theorem name?_ofList_eq_none_iff : (ofList entries).name? a = none ↔
    a ∉ entries.map Prod.snd ∨ Vacated entries a := by
  induction entries using List.reverseRecOn with
  | nil =>
    rw [ofList_nil, name?_empty]
    simp
  | append_singleton entries entry ih =>
    obtain ⟨name, b⟩ := entry
    -- the last entry gives its address a name, and takes the one of the former address of its name
    have hname : (ofList (entries ++ [(name, b)])).name? a = none ↔
        b ≠ a ∧ ((ofList entries).address? name = some a ∨ (ofList entries).name? a = none) := by
      rw [ofList_concat, name?_insert]
      by_cases hb : b = a
      · simp [hb]
      · by_cases hformer : (ofList entries).address? name = some a <;> simp [hb, hformer]
    have hmem : a ∉ (entries ++ [(name, b)]).map Prod.snd ↔
        a ∉ entries.map Prod.snd ∧ b ≠ a := by
      simp [eq_comm]
    rw [hname, hmem, vacated_concat_iff, ih]
    grind

/-- The address of a name has been given to it by an entry. -/
theorem mem_of_address?_ofList (h : (ofList entries).address? name = some a) :
    a ∈ entries.map Prod.snd := by
  obtain ⟨before, after, rfl, -⟩ := address?_ofList_eq_some_iff.mp h
  simp

/-- A bound address is without a name exactly if it has been vacated. -/
theorem name?_eq_none_iff_vacated (hbound : (ofList entries).address? name = some a) :
    (ofList entries).name? a = none ↔ Vacated entries a := by
  have hmem : a ∈ entries.map Prod.snd := mem_of_address?_ofList hbound
  rw [name?_ofList_eq_none_iff]
  constructor
  · rintro (hnot | hvacated)
    · exact absurd hmem hnot
    · exact hvacated
  · exact .inr

/-- A bound address has a name that is bound to it exactly if it has not been vacated. -/
theorem exists_name_iff_not_vacated (hbound : (ofList entries).address? name = some a) :
    (∃ other, (ofList entries).name? a = some other ∧
      (ofList entries).address? other = some a) ↔ ¬ Vacated entries a := by
  rw [← name?_eq_none_iff_vacated hbound]
  constructor
  · rintro ⟨other, hother, -⟩ hnone
    rw [hnone] at hother
    cases hother
  · intro hnot
    obtain ⟨other, hother⟩ := Option.ne_none_iff_exists'.mp hnot
    exact ⟨other, hother, sound_ofList entries a other hother⟩

/-! ## Calls -/

open InstructionSet

/-- **A call of a bound address is offered to the emulators unless the address has been
vacated.** Symbols are bound one after the other, and one of them is bound to `target`. Then there
is a name at `target` that is bound to it if and only if `target` has not been vacated. An
instruction that calls `target`, and can push its return address,

* is offered to no emulator if `target` has been vacated: it enters the guest there, whatever the
  program is linked to;
* is otherwise offered to the emulators under a name that is bound to `target`: an emulator that
  comes first and has an answer to the name serves it. -/
theorem dispatch_bound {entries : List (String × UInt32)} {name : String} {target : UInt32}
    (hbound : (ofList entries).address? name = some target) :
    let imports := ofList entries
    ((∃ other, imports.name? target = some other ∧ imports.address? other = some target) ↔
      ¬ Vacated entries target) ∧
    ∀ (cpu : Cpu) (next : UInt32), cpu.Calls target next →
      cpu.memory.Writable (cpu.esp - 4) 4 →
        let entered := cpu.dropRep.called next
        (Vacated entries target → ∀ emulators,
          (standard.dispatch { imports, emulators }).run cpu =
            ⟨.ok (), (entered.jump target).retire, standard.preamble cpu⟩) ∧
        (¬ Vacated entries target → ∃ other, imports.address? other = some target ∧
          ∀ emulator reply, emulator.answer? other entered = some reply → ∀ others,
            (standard.dispatch { imports, emulators := emulator :: others }).run cpu =
              ⟨.ok (), (reply.cpu.returnFromHost reply.result (emulator.cleanup other)).retire,
                standard.preamble cpu ++
                  (reply.events ++ [.served emulator.name other reply.result])⟩) := by
  intro imports
  refine ⟨exists_name_iff_not_vacated hbound, fun cpu next hcalls hstack => ⟨?_, ?_⟩⟩
  · intro hvacated emulators
    have hunnamed : imports.name? target = none := (name?_eq_none_iff_vacated hbound).mpr hvacated
    exact dispatch_unnamed hcalls hstack hunnamed
  · intro hnot
    obtain ⟨other, hother, hother'⟩ := (exists_name_iff_not_vacated hbound).mpr hnot
    refine ⟨other, hother', fun emulator reply hanswer others => ?_⟩
    exact dispatch_answered hcalls hstack hother hanswer others

/-- Two names that share an address, until the first of them is bound to another one. -/
def sharedThunk : List (String × UInt32) :=
  [("Beep", 0x7ff00000), ("ExitProcess", 0x7ff00000), ("Beep", 0x7ff00004)]

/-- The name that stays behind is still bound, but it is not found at its address. -/
theorem not_forall_bound_named :
    ¬ ∀ entries name a, (ofList entries).address? name = some a →
      ∃ other, (ofList entries).name? a = some other ∧
        (ofList entries).address? other = some a := by
  intro hall
  have hbound : (ofList sharedThunk).address? "ExitProcess" = some 0x7ff00000 := by rfl
  have hunnamed : (ofList sharedThunk).name? 0x7ff00000 = none := by rfl
  obtain ⟨other, hother, -⟩ := hall sharedThunk "ExitProcess" 0x7ff00000 hbound
  rw [hunnamed] at hother
  cases hother

/-- A processor about to call the address in EAX, which is that of `ExitProcess`. -/
def exitCall : Cpu where
  registers := { eax := 0x7ff00000, esp := 0x8000 }
  eip := 0x1000
  memory := ({} : Memory).storeBytes 0x1000 [0xff, 0xd0]

theorem dispatch_bound_sharedThunk :
    (ofList sharedThunk).address? "ExitProcess" = some 0x7ff00000 ∧
    let outcome := (standard.dispatch
      { imports := ofList sharedThunk, emulators := Win32.libraries }).run exitCall
    outcome.result = .ok () ∧ outcome.cpu.eip = 0x7ff00000 ∧ outcome.cpu.halted = false ∧
      outcome.cpu.registers = { eax := 0x7ff00000, esp := 0x7ffc } := by
  have hbound : (ofList sharedThunk).address? "ExitProcess" = some 0x7ff00000 := by rfl
  have hopcode : exitCall.opcode = 0xff := by
    simp [exitCall, Cpu.opcode, Memory.storeBytes, Memory.read8_store8]
  have hform : exitCall.codeByte 1 = 0xd0 := by
    simp [exitCall, Cpu.codeByte, Memory.storeBytes]
  have hcalls : exitCall.Calls 0x7ff00000 0x1002 := by
    have := Cpu.Calls.register hopcode (by rw [hform]; decide) (by rw [hform]; decide)
    rwa [hform] at this
  have hstack : exitCall.memory.Writable (exitCall.esp - 4) 4 := by
    intro a _
    simp [exitCall, Memory.storeBytes]
  obtain ⟨-, hcall⟩ := dispatch_bound hbound
  obtain ⟨hbypassed, -⟩ := hcall exitCall 0x1002 hcalls hstack
  have hvacated : Vacated sharedThunk 0x7ff00000 :=
    ⟨[("Beep", 0x7ff00000), ("ExitProcess", 0x7ff00000)], "Beep", 0x7ff00004, [], rfl, by decide,
      by rfl, List.not_mem_nil⟩
  refine ⟨hbound, ?_⟩
  rw [hbypassed hvacated]
  exact ⟨rfl, rfl, rfl, rfl⟩

end Imports

end Ia32
