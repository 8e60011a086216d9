import Ia32.Proofs.LoadedProtections
import Ia32.Proofs.StoredBytes
import Ia32.Sandbox.Lemmas

/-!
# Thunks that can be run

A jump to an import that nobody serves ends up on the thunk of its name, which should be a RET
instruction on an executable page. A thunk is one as far as the rest of the image and the top of
the address space leave it alone.

* `read8_thunk`: a thunk that lies in no slot holds a RET instruction.
* `protectionAt_thunk_eq_readExecute_iff`: when the page of a thunk is executable.
* `mount_thunks`: **both of them after a load**, at every thunk base.
* `mount_thunks_pastTop`: thunks that go on at the bottom of the address space are not executable.
-/

namespace Ia32

namespace Pe.Image

open Binding

section Mapped

variable {image : Image} {header : Header32} {file : Bytes} {thunkBase a : UInt32} {cpu : Cpu}
  {name : String} (hbound : (image.binding thunkBase).imports.address? name = some a)
  (hheader : image.header = .ok header) (hcheck : image.check header file = .ok ())
  (hcpu : cpu.memory.Unprotected)

include hbound hheader hcheck hcpu

/-- A thunk that lies in no slot holds a RET instruction. -/
theorem read8_thunk (hslots : ∀ i ∈ image.imports, 4 ≤ a - i.address header.base) :
    ((image.map file thunkBase).run cpu).cpu.memory.read8 a = 0xc3 := by
  rw [read8_map hheader hcheck hcpu]
  refine Memory.read8_storeRuns_of_agree (fun _ hrun => short_of_mem_importRuns hrun)
    ⟨_, thunk_mem_importRuns hbound, ByteRun.byte?_singleton_eq_some_iff.mpr ⟨rfl, rfl⟩⟩ ?_
  intro run hrun b hb
  rcases exists_of_mem_importRuns hrun with ⟨_, a', -, rfl⟩ | ⟨i, hi, a', -, rfl⟩
  · exact (ByteRun.byte?_singleton_eq_some_iff.mp hb).2.symm
  · rw [byte?_slotRun_eq_none (hslots i hi)] at hb
    cases hb

omit hbound hheader hcheck hcpu in
/-- Thunks lie on the pages that are protected for them, unless they have gone on at the bottom of
the address space. -/
theorem pageNumber_thunk_le (hcount : image.imports.length < 0x40000000)
    (hbound : (image.binding thunkBase).imports.address? name = some a)
    (hpage : pageNumber thunkBase ≤ pageNumber a) :
    pageNumber a ≤ min (thunkBase.toNat + 4 * image.names.card - 1) 0xffffffff / 0x1000 := by
  obtain ⟨j, hj, rfl⟩ := (image.numbered_binding thunkBase).exists_place name a hbound
  have hcard := image.card_names_le
  have hbase := thunkBase.toNat_lt
  unfold pageNumber at hpage ⊢
  rw [UInt32.toNat_add, UInt32.toNat_ofNat'] at hpage ⊢
  omega

/-- **The page of a thunk is executable** if code lies on it, or if neither headers nor sections
touch it and the thunk has not gone on at the bottom of the address space. -/
theorem protectionAt_thunk_eq_readExecute_iff (hcount : image.imports.length < 0x40000000) :
    ((image.map file thunkBase).run cpu).cpu.memory.protectionAt a = .readExecute ↔
      (∃ r ∈ image.ranges header file, r.Touches a ∧ r.protection = .readExecute) ∨
        (∀ r ∈ image.ranges header file, ¬r.Touches a) ∧
          pageNumber thunkBase ≤ pageNumber a := by
  -- ranges of the image override the protection that is set for the thunks
  by_cases htouched : ∃ r ∈ image.ranges header file, r.Touches a
  · have hstrictest := strictest_map thunkBase hcount hheader hcheck hcpu htouched
    have hnot : ¬∀ r ∈ image.ranges header file, ¬r.Touches a := by
      obtain ⟨r, hmem, htouches⟩ := htouched
      exact fun h => h r hmem htouches
    rw [or_iff_left fun h => hnot h.1]
    constructor
    · intro hcode
      obtain ⟨r, hmem, htouches, hr⟩ := hstrictest.1
      exact ⟨r, hmem, htouches, hr.trans hcode⟩
    · rintro ⟨r, hmem, htouches, hr⟩
      exact hstrictest.eq_readExecute hmem htouches hr
  · have hnone : ∀ r ∈ image.ranges header file, ¬r.Touches a :=
      fun r hmem htouches => htouched ⟨r, hmem, htouches⟩
    have himports : image.imports ≠ [] := by
      intro hnil
      obtain ⟨j, hj, -⟩ := (image.numbered_binding thunkBase).exists_place name a hbound
      rw [image.card_names_eq_zero_iff.mpr hnil] at hj
      exact Nat.not_lt_zero j hj
    rw [protectionAt_map_of_not_touches hcount hheader hcheck hcpu hnone]
    constructor
    · intro hcode
      refine .inr ⟨hnone, ?_⟩
      -- pages below the first thunk keep the protection of a fresh memory
      by_contra hpage
      rw [if_neg fun h => hpage h.2.1] at hcode
      cases hcode
    · rintro (⟨r, hmem, htouches, -⟩ | ⟨-, hpage⟩)
      · exact absurd htouches (hnone r hmem)
      · exact if_pos ⟨himports, hpage, pageNumber_thunk_le hcount hbound hpage⟩

end Mapped

/-- **The thunks of a loaded image.** Whatever the thunk base, the thunk of every bound name holds
a RET instruction if no address slot lies over it, and its page is executable if and only if code
lies on that page, or neither headers nor sections touch it and the thunk is not one of those that
have gone on at the bottom of the address space. -/
theorem mount_thunks {σ : Type} {s : Sandbox σ} {image : Image} {file : Bytes}
    {loaded : LoadedImage} (hcount : image.imports.length < 0x40000000)
    (hloaded : (s.mount image file).result = .ok loaded) :
    let after := (s.mount image file).sandbox
    ∃ header, image.header = .ok header ∧ ∀ name a, after.imports.address? name = some a →
      ((∀ i ∈ image.imports, 4 ≤ a - i.address header.base) → after.cpu.memory.read8 a = 0xc3) ∧
        (after.cpu.memory.protectionAt a = .readExecute ↔
          (∃ r ∈ image.ranges header file, r.Touches a ∧ r.protection = .readExecute) ∨
            (∀ r ∈ image.ranges header file, ¬r.Touches a) ∧
              pageNumber s.config.thunkBase ≤ pageNumber a) := by
  intro after
  obtain ⟨himports, hmemory⟩ := Sandbox.mount_of_ok hloaded
  have hcpu := unprotected_withStackTop s.config.stackTop
  rw [Sandbox.result_mount] at hloaded
  obtain ⟨header, hheader, hcheck, rfl⟩ := exists_check hcpu hloaded
  refine ⟨header, hheader, fun name a hbound => ?_⟩
  rw [himports] at hbound
  rw [hmemory]
  exact ⟨read8_thunk hbound hheader hcheck hcpu,
    protectionAt_thunk_eq_readExecute_iff hbound hheader hcheck hcpu hcount⟩

/-- The header of `paired`. -/
def pairedHeader : Header32 := ⟨0x400000, 0, 0⟩

/-- An image with two imports and nothing else. -/
def paired : Image where
  machine := machine386
  optional := some (.pe32 pairedHeader)
  sections := []
  imports := [⟨"Sleep", "KERNEL32.dll", 0x1000⟩, ⟨"Beep", "KERNEL32.dll", 0x1004⟩]

/-- A sandbox whose thunks start at `thunkBase`. -/
def sandboxAt (thunkBase : UInt32) : Sandbox Unit := .new { thunkBase } ()

theorem result_mount_paired (thunkBase : UInt32) :
    ((sandboxAt thunkBase).mount paired #[]).result =
      .ok (paired.loaded pairedHeader thunkBase) := by
  rw [Sandbox.result_mount, (map_run paired pairedHeader #[] _ rfl (unprotected_withStackTop _)).1]
  rfl

/-- The second thunk of `paired` is the one of its second import. -/
theorem address?_mount_paired (thunkBase : UInt32) :
    ((sandboxAt thunkBase).mount paired #[]).sandbox.imports.address? "Beep" =
      some (thunkBase + 4) := by
  have hcard : ([⟨"Sleep", "KERNEL32.dll", 0x1000⟩].map Import.symbol).toFinset.card = 1 := by
    decide
  have hsplit : paired.imports = [⟨"Sleep", "KERNEL32.dll", 0x1000⟩] ++
      ⟨"Beep", "KERNEL32.dll", 0x1004⟩ :: [] := rfl
  have hbeep := address?_binding_of_split thunkBase hsplit (by decide)
  rw [hcard] at hbeep
  rw [(Sandbox.mount_of_ok (result_mount_paired thunkBase)).1]
  exact hbeep

theorem not_touches_paired {a : UInt32} :
    ∀ r ∈ paired.ranges pairedHeader #[], ¬r.Touches a := by
  intro r hmem
  obtain rfl : r = ⟨0x400000, 0, .readOnly⟩ := List.mem_singleton.mp hmem
  rintro ⟨i, hi, -⟩
  exact Nat.not_lt_zero i hi

theorem mount_thunks_paired :
    let after := ((sandboxAt 0x500000).mount paired #[]).sandbox
    paired.imports.length < 0x40000000 ∧
      ((sandboxAt 0x500000).mount paired #[]).result =
        .ok (paired.loaded pairedHeader 0x500000) ∧
      after.imports.address? "Beep" = some 0x500004 ∧
      after.cpu.memory.read8 0x500004 = 0xc3 ∧
      after.cpu.memory.protectionAt 0x500004 = .readExecute := by
  intro after
  have hcount : paired.imports.length < 0x40000000 := by decide
  have hresult := result_mount_paired 0x500000
  have hbeep := address?_mount_paired 0x500000
  obtain ⟨header, hheader, hthunks⟩ := mount_thunks hcount hresult
  obtain rfl : header = pairedHeader := by cases hheader; rfl
  obtain ⟨hread, hprotected⟩ := hthunks "Beep" _ hbeep
  exact ⟨hcount, hresult, hbeep, hread (by decide),
    hprotected.mpr (.inr ⟨not_touches_paired, by decide⟩)⟩

/-- Of two thunks that start four bytes below the top of the address space the second one lies at
its bottom, where it is not executable. -/
theorem mount_thunks_pastTop :
    let after := ((sandboxAt 0xfffffffc).mount paired #[]).sandbox
    ((sandboxAt 0xfffffffc).mount paired #[]).result =
        .ok (paired.loaded pairedHeader 0xfffffffc) ∧
      after.imports.address? "Beep" = some 0 ∧
      after.cpu.memory.protectionAt 0 = .readWrite := by
  intro after
  have hresult := result_mount_paired 0xfffffffc
  have hcheck : paired.check pairedHeader #[] = .ok () := check_eq_ok_iff.mpr (by decide)
  refine ⟨hresult, address?_mount_paired 0xfffffffc, ?_⟩
  rw [(Sandbox.mount_of_ok hresult).2, protectionAt_map_of_not_touches (by decide) rfl hcheck
    (unprotected_withStackTop _) not_touches_paired]
  decide

end Pe.Image

end Ia32
