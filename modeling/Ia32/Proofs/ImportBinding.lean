import Ia32.Proofs.LoadedProtections
import Ia32.Proofs.StoredBytes

/-!
# The binding of imports

A loaded image calls what it imports through its address slots. If neither the thunks nor the
slots get in each other's way (`Separate`), a slot still points at the thunk of its name when
everything is stored, and the name is found again from what the slot holds.

* `read32_slot`: the dword in a slot is the address of its name.
* `map_binds`: **the symbols of a loaded image are its names, bound to consecutive thunks in the
  order in which they first occur, and every slot leads back to its name.**
-/

namespace Ia32.Pe

/-- The dwords at two addresses have no byte in common. -/
def Apart (a b : UInt32) : Prop := 4 ≤ a - b ∧ 4 ≤ b - a

instance (a b : UInt32) : Decidable (Apart a b) := inferInstanceAs (Decidable (_ ∧ _))

namespace Image

open Binding

/-- The thunks of an image end before the top of the address space and lie in no slot, and slots
overlap only if they are one slot of one name. -/
structure Separate (image : Image) (base thunkBase : UInt32) : Prop where
  fits : thunkBase.toNat + 4 * image.names.card ≤ 0x100000000
  thunks : ∀ i ∈ image.imports, ∀ k < 4 * image.names.card,
    4 ≤ thunkBase + UInt32.ofNat k - i.address base
  slots_of_eq : ∀ i ∈ image.imports, ∀ j ∈ image.imports, i.symbol = j.symbol →
    i.address base = j.address base ∨ Apart (i.address base) (j.address base)
  slots_of_ne : ∀ i ∈ image.imports, ∀ j ∈ image.imports, i.symbol ≠ j.symbol →
    Apart (i.address base) (j.address base)

/-- Slots that both have a byte for an address are not apart. -/
theorem not_apart_of_byte? {base x a a' : UInt32} {i j : Import} {b b' : UInt8}
    (hi : (slotRun base i a).byte? x = some b) (hj : (slotRun base j a').byte? x = some b') :
    ¬Apart (i.address base) (j.address base) := by
  have hi' := lt_four_of_byte?_slotRun hi
  have hj' := lt_four_of_byte?_slotRun hj
  rintro ⟨hij, hji⟩
  rw [UInt32.le_iff_toNat_le] at hij hji
  simp only [UInt32.toNat_sub, UInt32.reduceToNat] at hi' hj' hij hji
  have := (i.address base).toNat_lt
  have := (j.address base).toNat_lt
  have := x.toNat_lt
  omega

section Mapped

variable {image : Image} {header : Header32} {file : Bytes} {thunkBase : UInt32} {cpu : Cpu}

/-- What is stored for the imports leaves the bytes of a slot as its own import stores them. -/
theorem eq_of_byte?_slotRun (hsep : image.Separate header.base thunkBase) {i : Import}
    (hi : i ∈ image.imports) {a x : UInt32} {b b' : UInt8} {run : ByteRun}
    (ha : (image.binding thunkBase).imports.address? i.symbol = some a)
    (hb : (slotRun header.base i a).byte? x = some b)
    (hrun : run ∈ image.importRuns header thunkBase) (hb' : run.byte? x = some b') : b' = b := by
  rcases exists_of_mem_importRuns hrun with ⟨name, t, ht, rfl⟩ | ⟨j, hj, t, ht, rfl⟩
  · -- no thunk lies in the slot
    obtain ⟨rfl, -⟩ := ByteRun.byte?_singleton_eq_some_iff.mp hb'
    obtain ⟨k, hk, hplace⟩ := (image.numbered_binding thunkBase).exists_place name x ht
    have hfar := hsep.thunks i hi (4 * k) (by omega)
    rw [← hplace] at hfar
    rw [byte?_slotRun_eq_none hfar] at hb
    cases hb
  · by_cases hname : i.symbol = j.symbol
    · rcases hsep.slots_of_eq i hi j hj hname with hsame | hapart
      · -- the same slot for the same name is pointed at the same thunk
        rw [← hname, ha] at ht
        cases ht
        rw [slotRun, ← hsame] at hb'
        exact Option.some.inj (hb'.symm.trans hb)
      · exact absurd hapart (not_apart_of_byte? hb hb')
    · exact absurd (hsep.slots_of_ne i hi j hj hname) (not_apart_of_byte? hb hb')

/-- **The dword in a slot is the address that its name is bound to.** -/
theorem read32_slot (hsep : image.Separate header.base thunkBase)
    (hheader : image.header = .ok header) (hcheck : image.check header file = .ok ())
    (hcpu : cpu.memory.Unprotected) {i : Import} (hi : i ∈ image.imports) :
    (image.binding thunkBase).imports.address? i.symbol =
      some (((image.map file thunkBase).run cpu).cpu.memory.read32 (i.address header.base)) := by
  obtain ⟨a, ha, hmem⟩ := slot_mem_importRuns header thunkBase hi
  rw [ha, read32_of_slotRun fun x b hb => ?_]
  rw [read8_map hheader hcheck hcpu]
  exact Memory.read8_storeRuns_of_agree (fun _ hrun => short_of_mem_importRuns hrun)
    ⟨_, hmem, hb⟩ fun _ hrun _ hb' => eq_of_byte?_slotRun hsep hi ha hb hrun hb'

end Mapped

/-- **The imports of a loaded image.** If the thunks and the slots do not get in each other's way,

* the names that are bound are those that the image imports, each once;
* a name that is new after so many others is bound to the thunk at that place;
* the look-ups by name and by address are inverse to each other;
* the slot of every import, from whatever library and whatever its page is protected with, holds
  the address of its name, and the name is found at the address that the slot holds. -/
theorem map_binds {image : Image} {file : Bytes} {thunkBase top : UInt32} {loaded : LoadedImage}
    (hloaded : ((image.map file thunkBase).run (.withStackTop top)).result = .ok loaded)
    (hsep : image.Separate loaded.base thunkBase) :
    let memory := ((image.map file thunkBase).run (.withStackTop top)).cpu.memory
    loaded.imports.size = image.names.card ∧
      (∀ name, (loaded.imports.address? name).isSome ↔ name ∈ image.names) ∧
      (∀ before i after, image.imports = before ++ i :: after →
        i.symbol ∉ before.map (·.symbol) → loaded.imports.address? i.symbol =
          some (thunkBase + UInt32.ofNat (4 * (before.map (·.symbol)).toFinset.card))) ∧
      (∀ name a, loaded.imports.address? name = some a ↔ loaded.imports.name? a = some name) ∧
      ∀ i ∈ image.imports, (i.address loaded.base).toNat = loaded.base.toNat + i.slot ∧
        loaded.imports.address? i.symbol = some (memory.read32 (i.address loaded.base)) ∧
        loaded.imports.name? (memory.read32 (i.address loaded.base)) = some i.symbol := by
  intro memory
  have hcpu := unprotected_withStackTop top
  obtain ⟨header, hheader, hcheck, rfl⟩ := exists_check hcpu hloaded
  have hnumbered := image.numbered_binding thunkBase
  have hinverse : (image.binding thunkBase).imports.Inverse := by
    have := hsep.fits
    exact inverse_binding thunkBase (by omega)
  refine ⟨hnumbered.size, hnumbered.isSome_iff,
    fun before i after hsplit hnew => address?_binding_of_split thunkBase hsplit hnew, hinverse,
    fun i hi => ?_⟩
  have hslot := read32_slot hsep hheader hcheck hcpu hi
  refine ⟨?_, hslot, (hinverse _ _).mp hslot⟩
  -- the slot has passed the check of its address, which therefore does not wrap
  have hinside := (check_eq_ok_iff.mp hcheck).slots i hi
  change (header.base + UInt32.ofNat i.slot).toNat = header.base.toNat + i.slot
  rw [UInt32.toNat_add, UInt32.toNat_ofNat']
  omega

/-- The header of `twice`. -/
def twiceHeader : Header32 := ⟨0x400000, 0x1000, 0⟩

/-- An image that imports a name from two libraries, with slots among its code. -/
def twice : Image where
  machine := machine386
  optional := some (.pe32 twiceHeader)
  sections := [⟨some ".text", 0x1000, 0x1000, 0, 0, 0x60000020⟩]
  imports := [⟨"Sleep", "KERNEL32.dll", 0x1000⟩, ⟨"MessageBoxA", "USER32.dll", 0x1004⟩,
    ⟨"Sleep", "KERNELBASE.dll", 0x1010⟩]

theorem twice_card_names : twice.names.card = 2 := by decide

theorem twice_separate : twice.Separate 0x400000 0x500000 where
  fits := by
    rw [twice_card_names]
    decide
  thunks := by
    rw [twice_card_names]
    decide
  slots_of_eq := by decide
  slots_of_ne := by decide

theorem map_binds_twice :
    let loading := (twice.map #[] 0x500000).run (.withStackTop 0x80000)
    let loaded := twice.loaded twiceHeader 0x500000
    loading.result = .ok loaded ∧ twice.Separate loaded.base 0x500000 ∧
      loading.cpu.memory.protectionAt 0x401010 = .readExecute ∧
      loading.cpu.memory.read32 0x401010 = 0x500000 ∧
      loading.cpu.memory.read32 0x401004 = 0x500004 ∧
      loaded.imports.name? 0x500000 = some "Sleep" := by
  intro loading loaded
  have hcpu := unprotected_withStackTop 0x80000
  have hresult : loading.result = .ok loaded := by
    rw [(map_run twice twiceHeader #[] 0x500000 rfl hcpu).1]
    rfl
  obtain ⟨-, -, hfirst, -, hslots⟩ := map_binds hresult twice_separate
  have hsleep := hfirst [] ⟨"Sleep", "KERNEL32.dll", 0x1000⟩ _ rfl (by decide)
  have hbox := hfirst [⟨"Sleep", "KERNEL32.dll", 0x1000⟩] ⟨"MessageBoxA", "USER32.dll", 0x1004⟩ _
    rfl (by decide)
  obtain ⟨-, haddress, hname⟩ := hslots ⟨"Sleep", "KERNELBASE.dll", 0x1010⟩ (by decide)
  obtain ⟨-, haddress', -⟩ := hslots ⟨"MessageBoxA", "USER32.dll", 0x1004⟩ (by decide)
  have hread := Option.some.inj (haddress.symm.trans hsleep)
  refine ⟨hresult, twice_separate, ?_, hread, Option.some.inj (haddress'.symm.trans hbox), ?_⟩
  · have hcheck : twice.check twiceHeader #[] = .ok () := check_eq_ok_iff.mpr (by decide)
    have htext : (⟨0x401000, 0x1000, .readExecute⟩ : PageRange) ∈ twice.ranges twiceHeader #[] := by
      decide
    have htouches : (⟨0x401000, 0x1000, .readExecute⟩ : PageRange).Touches 0x401010 :=
      ⟨0x10, by decide, rfl⟩
    have hstrictest := strictest_map 0x500000 (by decide) rfl hcheck hcpu ⟨_, htext, htouches⟩
    exact hstrictest.eq_readExecute htext htouches rfl
  · rwa [hread] at hname

end Image

end Ia32.Pe
