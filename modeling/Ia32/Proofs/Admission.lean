import Ia32.Proofs.Mapping

/-!
# Which images are mapped

A mapping looks at where the entry point, the sections and the address slots of an image start,
and at whether the file holds the data of the sections (`Admissible`). It does not look at where
they end.

* `check_eq_ok_iff`: the checks of a mapping are passed by admissible images.
* `exists_check`: an image that is mapped has a header and passes its checks.
-/

namespace Ia32.Pe

section Checks

variable {α ε : Type}

theorem and_then_eq_ok_iff {check check' : Except ε Unit} :
    (check >>= fun _ => check') = .ok () ↔ check = .ok () ∧ check' = .ok () := by
  cases check with
  | error e => exact iff_of_false (fun h => nomatch h) (fun h => nomatch h.1)
  | ok _ => exact ⟨fun h => ⟨rfl, h⟩, fun h => h.2⟩

theorem forM_eq_ok_iff {check : α → Except ε Unit} {l : List α} :
    l.forM check = .ok () ↔ ∀ a ∈ l, check a = .ok () := by
  induction l with
  | nil => exact iff_of_true rfl (List.forall_mem_nil _)
  | cons a l ih =>
    rw [List.forall_mem_cons, ← ih]
    exact and_then_eq_ok_iff

theorem map_eq_ok_unit_iff {e : Except ε α} :
    e.map (fun _ => ()) = .ok () ↔ ∃ a, e = .ok a := by
  cases e with
  | error e => exact iff_of_false (fun h => nomatch h) (fun h => nomatch h.choose_spec)
  | ok a => exact iff_of_true rfl ⟨a, rfl⟩

end Checks

theorem exists_rebase_iff {base : UInt32} {place : Nat} :
    (∃ a, rebase base place = .ok a) ↔ base.toNat + place < 0x100000000 := by
  constructor
  · rintro ⟨a, h⟩
    exact (rebase_eq_ok_iff.mp h).1
  · intro h
    exact ⟨_, rebase_eq_ok_iff.mpr ⟨h, rfl⟩⟩

theorem Section.exists_rawData_iff {s : Section} {file : Bytes} :
    (∃ bytes, s.rawData file = .ok bytes) ↔ s.rawPointer.toNat + s.rawSize.toNat ≤ file.size := by
  unfold rawData
  by_cases h : s.rawPointer.toNat + s.rawSize.toNat ≤ file.size
  · simp [h]
  · simp [h]

namespace Image

variable {image : Image} {header : Header32} {file : Bytes} {thunkBase : UInt32} {cpu : Cpu}

/-- An image can be run if it is a 32-bit one for the 386 family. -/
theorem header_eq_ok_iff : image.header = .ok header ↔
    image.machine = machine386 ∧ image.optional = some (.pe32 header) := by
  unfold Image.header
  cases image.optional with
  | none => by_cases h : image.machine = machine386 <;> simp [h]
  | some optional =>
    cases optional with
    | pe32Plus => simp
    | pe32 header => by_cases h : image.machine = machine386 <;> simp [h]

/-- What a mapping asks of an image: its parts start inside the address space, and the file holds
the data of its sections. -/
structure Admissible (image : Image) (header : Header32) (file : Bytes) : Prop where
  entry : header.base.toNat + header.entry.toNat < 0x100000000
  sections : ∀ s ∈ image.sections, header.base.toNat + s.virtualAddress.toNat < 0x100000000
  rawData : ∀ s ∈ image.sections, s.rawPointer.toNat + s.rawSize.toNat ≤ file.size
  slots : ∀ i ∈ image.imports, header.base.toNat + i.slot < 0x100000000

instance (image : Image) (header : Header32) (file : Bytes) :
    Decidable (image.Admissible header file) :=
  decidable_of_iff
    (header.base.toNat + header.entry.toNat < 0x100000000 ∧
      (∀ s ∈ image.sections, header.base.toNat + s.virtualAddress.toNat < 0x100000000) ∧
      (∀ s ∈ image.sections, s.rawPointer.toNat + s.rawSize.toNat ≤ file.size) ∧
      ∀ i ∈ image.imports, header.base.toNat + i.slot < 0x100000000)
    ⟨fun ⟨entry, sections, rawData, slots⟩ => ⟨entry, sections, rawData, slots⟩,
      fun ⟨entry, sections, rawData, slots⟩ => ⟨entry, sections, rawData, slots⟩⟩

/-- **The checks of a mapping are passed by admissible images.** -/
theorem check_eq_ok_iff : image.check header file = .ok () ↔ image.Admissible header file := by
  have hsection (s : Section) : s.check file header.base = .ok () ↔
      header.base.toNat + s.virtualAddress.toNat < 0x100000000 ∧
        s.rawPointer.toNat + s.rawSize.toNat ≤ file.size := by
    rw [Section.check, and_then_eq_ok_iff, map_eq_ok_unit_iff, map_eq_ok_unit_iff,
      exists_rebase_iff, Section.exists_rawData_iff]
  have hslot (i : Import) : Binding.check header.base i = .ok () ↔
      header.base.toNat + i.slot < 0x100000000 := by
    rw [Binding.check, map_eq_ok_unit_iff, exists_rebase_iff]
  rw [check, and_then_eq_ok_iff, and_then_eq_ok_iff, map_eq_ok_unit_iff, exists_rebase_iff,
    forM_eq_ok_iff, forM_eq_ok_iff]
  simp only [hsection, hslot]
  -- the two sides differ in how the conditions on sections are grouped
  constructor
  · rintro ⟨hentry, hsections, hslots⟩
    exact ⟨hentry, fun s hs => (hsections s hs).1, fun s hs => (hsections s hs).2, hslots⟩
  · rintro ⟨hentry, hsections, hdata, hslots⟩
    exact ⟨hentry, fun s hs => ⟨hsections s hs, hdata s hs⟩, hslots⟩

/-- A processor as a sandbox sets it up has no protected pages. -/
theorem unprotected_withStackTop (top : UInt32) : (Cpu.withStackTop top).memory.Unprotected :=
  Memory.protectionAt_empty

/-- An image that is mapped has a header and passes its checks. -/
theorem exists_check (hcpu : cpu.memory.Unprotected) {loaded : LoadedImage}
    (h : ((image.map file thunkBase).run cpu).result = .ok loaded) :
    ∃ header, image.header = .ok header ∧ image.check header file = .ok () ∧
      loaded = image.loaded header thunkBase := by
  cases hheader : image.header with
  | error e =>
    rw [map, hheader] at h
    cases h
  | ok header =>
    rw [(map_run image header file thunkBase hheader hcpu).1] at h
    cases hcheck : image.check header file with
    | error e =>
      rw [hcheck] at h
      cases h
    | ok _ =>
      rw [hcheck] at h
      cases h
      exact ⟨header, rfl, hcheck, rfl⟩

end Image

end Ia32.Pe
