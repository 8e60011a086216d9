import Ia32.Proofs.LoadedBytes

/-!
# The end of the address space

* `exists_loaded_iff`: **an image is mapped if its parts start inside the address space** and the
  file holds the data of its sections; it is refused otherwise.
* `exists_loaded_pastTop`: they may end outside of it, and go on at the bottom.
-/

namespace Ia32.Pe.Image

/-- **Which images are mapped.** In a processor as a sandbox sets it up, a mapping succeeds if and
only if the image is a 32-bit one for the 386 family, its entry point, its sections and its
address slots start inside the address space, and the file holds the data of its sections. -/
theorem exists_loaded_iff {image : Image} {file : Bytes} {thunkBase top : UInt32} :
    (∃ loaded, ((image.map file thunkBase).run (.withStackTop top)).result = .ok loaded) ↔
      ∃ header, image.machine = machine386 ∧ image.optional = some (.pe32 header) ∧
        image.Admissible header file := by
  have hcpu := unprotected_withStackTop top
  constructor
  · rintro ⟨loaded, hloaded⟩
    obtain ⟨header, hheader, hcheck, -⟩ := exists_check hcpu hloaded
    obtain ⟨hmachine, hoptional⟩ := header_eq_ok_iff.mp hheader
    exact ⟨header, hmachine, hoptional, check_eq_ok_iff.mp hcheck⟩
  · rintro ⟨header, hmachine, hoptional, hadmissible⟩
    have hheader := header_eq_ok_iff.mpr ⟨hmachine, hoptional⟩
    refine ⟨image.loaded header thunkBase, ?_⟩
    rw [(map_run image header file thunkBase hheader hcpu).1, check_eq_ok_iff.mpr hadmissible]
    rfl

/-- The header of `pastTop`. -/
def pastTopHeader : Header32 := ⟨0xfffffff0, 0, 0x20⟩

/-- An image whose headers, section and address slot all start below the top of the address space
and end past it. -/
def pastTop : Image where
  machine := machine386
  optional := some (.pe32 pastTopHeader)
  sections := [⟨some ".data", 0x10, 8, 0x10, 0, 0xc0000040⟩]
  imports := [⟨"Sleep", "KERNEL32.dll", 0xe⟩]

/-- The file of `pastTop`. -/
def pastTopFile : Bytes := Array.replicate 0x20 0x90

/-- An image that is mapped may end past the top of the address space. What lies there is stored
at the bottom. -/
theorem exists_loaded_pastTop :
    let loading := (pastTop.map pastTopFile 0x500000).run (.withStackTop 0x80000)
    loading.result = .ok (pastTop.loaded pastTopHeader 0x500000) ∧
      0x100000000 < pastTopHeader.base.toNat +
        min pastTopHeader.headerSize.toNat pastTopFile.size ∧
      (∀ s ∈ pastTop.sections, 0x100000000 < pastTopHeader.base.toNat + s.virtualAddress.toNat +
        max s.virtualSize.toNat s.rawSize.toNat) ∧
      (∀ i ∈ pastTop.imports, 0x100000000 < pastTopHeader.base.toNat + i.slot + 4) ∧
      loading.cpu.memory.read8 8 = 0x90 := by
  intro loading
  have hcpu := unprotected_withStackTop 0x80000
  have hcheck : pastTop.check pastTopHeader pastTopFile = .ok () := check_eq_ok_iff.mpr (by decide)
  refine ⟨?_, by decide, by decide, by decide, ?_⟩
  · rw [(map_run pastTop pastTopHeader pastTopFile 0x500000 rfl hcpu).1, hcheck]
    rfl
  · have hthunks (name : String) :
        (pastTop.binding 0x500000).imports.address? name ≠ some 8 := fun h =>
      absurd (eq_of_card_names_eq_one 0x500000 (by decide) h) (by decide)
    rw [read8_map_of_untouched rfl hcheck hcpu (by decide) hthunks]
    rfl

end Ia32.Pe.Image
