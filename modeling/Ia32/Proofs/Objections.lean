import Ia32.Proofs.Admission

/-!
# What a mapping objects to

A mapping checks the address of the entry point, then section by section the address and the
data in the file, then the address slots of the imports, and it stores in between. The objections
to an image are the errors of all checks that it fails, in this order (`Image.objections`).

* `check_eq_firstOf`: the checks of a mapping end with the first objection.
* `map_fails_iff`: **a mapping fails with the first objection to the image**, and succeeds if
  there is none. No store of it is refused.
-/

namespace Ia32.Pe

section Checks

variable {α ε : Type}

/-- The first of some errors; without any there is nothing wrong. -/
def firstOf : List ε → Except ε Unit
  | [] => .ok ()
  | e :: _ => .error e

theorem firstOf_eq_error_iff {errors : List ε} {e : ε} :
    firstOf errors = .error e ↔ errors.head? = some e := by
  cases errors <;> simp [firstOf]

/-- What comes later is reached only if nothing is wrong before. -/
theorem firstOf_append (errors errors' : List ε) :
    firstOf (errors ++ errors') = (firstOf errors >>= fun _ => firstOf errors') := by
  cases errors <;> rfl

theorem firstOf_flatMap (errors : α → List ε) (l : List α) :
    firstOf (l.flatMap errors) = l.forM fun a => firstOf (errors a) := by
  induction l with
  | nil => rfl
  | cons a l ih =>
    rw [List.flatMap_cons, firstOf_append, ih]
    rfl

end Checks

/-- The objection to an address that lies past the end of the address space. It names the address
as it would be there. -/
def overflow (base : UInt32) (place : Nat) : List LoadError :=
  if base.toNat + place < 0x100000000 then [] else [.addressOverflow (base.toNat + place)]

theorem rebase_eq_firstOf (base : UInt32) (place : Nat) :
    (rebase base place).map (fun _ => ()) = firstOf (overflow base place) := by
  unfold rebase overflow
  by_cases h : base.toNat + place < 0x100000000
  · have hsize : base.toNat + place < UInt32.size := h
    rw [if_pos h, if_pos hsize]
    rfl
  · have hsize : ¬base.toNat + place < UInt32.size := h
    rw [if_neg h, if_neg hsize]
    rfl

namespace Section

variable (s : Section) (file : Bytes) (base : UInt32)

/-- The objection to a section whose data the file does not hold. -/
def truncation : List LoadError :=
  if s.rawPointer.toNat + s.rawSize.toNat ≤ file.size then []
  else [.truncated s.label s.rawPointer.toNat s.rawSize.toNat file.size]

/-- The objections to a section: to its address first, then to its data. -/
def objections : List LoadError := overflow base s.virtualAddress.toNat ++ s.truncation file

theorem rawData_eq_firstOf : (s.rawData file).map (fun _ => ()) = firstOf (s.truncation file) := by
  unfold rawData truncation
  dsimp only
  split <;> rfl

theorem check_eq_firstOf : s.check file base = firstOf (s.objections file base) := by
  rw [check, objections, firstOf_append, rebase_eq_firstOf, rawData_eq_firstOf]

end Section

namespace Image

variable (image : Image) (header : Header32) (file : Bytes)

/-- The objections to an image: to its entry point first, then to its sections in the order of
their table, then to its imports. -/
def objections : List LoadError :=
  overflow header.base header.entry.toNat ++
    (image.sections.flatMap (·.objections file header.base) ++
      image.imports.flatMap fun i => overflow header.base i.slot)

/-- **The checks of a mapping end with the first objection.** -/
theorem check_eq_firstOf : image.check header file = firstOf (image.objections header file) := by
  have hsections : (fun s : Section => s.check file header.base) =
      fun s => firstOf (s.objections file header.base) :=
    funext fun s => s.check_eq_firstOf file header.base
  have hslots : Binding.check header.base = fun i => firstOf (overflow header.base i.slot) :=
    funext fun i => rebase_eq_firstOf header.base i.slot
  rw [check, objections, firstOf_append, firstOf_append, firstOf_flatMap, firstOf_flatMap,
    rebase_eq_firstOf, hsections, hslots]

variable {image header file}

/-- Every objection is to an address or to the data of a section. -/
theorem ne_refused_of_mem_objections {e : LoadError} (h : e ∈ image.objections header file)
    (violation : AccessViolation) : e ≠ .refused violation := by
  have hoverflow {base : UInt32} {place : Nat} (he : e ∈ overflow base place) :
      e ≠ .refused violation := by
    unfold overflow at he
    split at he
    · cases he
    · rw [List.mem_singleton.mp he]
      exact nofun
  rw [objections, List.mem_append, List.mem_append, List.mem_flatMap, List.mem_flatMap] at h
  -- by what is objected to: the entry point, a section or a slot
  rcases h with hentry | ⟨s, -, hsection⟩ | ⟨i, -, hslot⟩
  · exact hoverflow hentry
  · rcases List.mem_append.mp hsection with haddress | hdata
    · exact hoverflow haddress
    · unfold Section.truncation at hdata
      split at hdata
      · cases hdata
      · rw [List.mem_singleton.mp hdata]
        exact nofun
  · exact hoverflow hslot

/-- **When a mapping fails, and how.** An image is a 32-bit one for the 386 family, and no page of
the memory is protected. Then its mapping

* succeeds if and only if the entry point, the sections and the address slots of the imports start
  inside the address space, and the file holds the data of the sections;
* fails with an error if and only if that is the first objection to the image, in the order of
  entry point, sections, each with its address before its data, and imports;
* never fails because a store is refused, however sections, slots and thunks overlap. -/
theorem map_fails_iff (hmachine : image.machine = machine386)
    (hoptional : image.optional = some (.pe32 header)) {cpu : Cpu}
    (hcpu : cpu.memory.Unprotected) (thunkBase : UInt32) :
    let result := ((image.map file thunkBase).run cpu).result
    ((∃ loaded, result = .ok loaded) ↔
      header.base.toNat + header.entry.toNat < 0x100000000 ∧
      (∀ s ∈ image.sections, header.base.toNat + s.virtualAddress.toNat < 0x100000000 ∧
        s.rawPointer.toNat + s.rawSize.toNat ≤ file.size) ∧
      ∀ i ∈ image.imports, header.base.toNat + i.slot < 0x100000000) ∧
    (∀ e, result = .error e ↔ (image.objections header file).head? = some e) ∧
    ∀ violation, result ≠ .error (.refused violation) := by
  intro result
  have hheader : image.header = .ok header := header_eq_ok_iff.mpr ⟨hmachine, hoptional⟩
  have hresult : result =
      (image.check header file).map fun _ => image.loaded header thunkBase :=
    (map_run image header file thunkBase hheader hcpu).1
  have herror (e : LoadError) :
      result = .error e ↔ (image.objections header file).head? = some e := by
    rw [hresult, check_eq_firstOf, ← firstOf_eq_error_iff]
    cases firstOf (image.objections header file) <;> simp [Except.map]
  refine ⟨?_, herror, fun violation hrefused => ?_⟩
  · have hok : (∃ loaded, result = .ok loaded) ↔ image.check header file = .ok () := by
      rw [hresult]
      cases image.check header file <;> simp [Except.map]
    rw [hok, check_eq_ok_iff]
    constructor
    · rintro ⟨hentry, hsections, hdata, hslots⟩
      exact ⟨hentry, fun s hs => ⟨hsections s hs, hdata s hs⟩, hslots⟩
    · rintro ⟨hentry, hsections, hslots⟩
      exact ⟨hentry, fun s hs => (hsections s hs).1, fun s hs => (hsections s hs).2, hslots⟩
  · have hmem := List.mem_of_mem_head? ((herror _).mp hrefused)
    exact ne_refused_of_mem_objections hmem violation rfl

/-- The header of `faulty`. -/
def faultyHeader : Header32 := ⟨0xffff0000, 0x1000, 0x20⟩

/-- An image with several faults: the data of the second section are not in the file, the third
one has its address past the top of the address space as well, and so has the slot. -/
def faulty : Image where
  machine := machine386
  optional := some (.pe32 faultyHeader)
  sections := [⟨some ".text", 0x20, 0x1000, 0x20, 0, 0x60000020⟩,
    ⟨none, 0x20, 0x2000, 0x20, 0x10, 0xc0000040⟩, ⟨some ".rsrc", 0x20, 0x10000, 0x20, 0x10, 0⟩]
  imports := [⟨"Sleep", "KERNEL32.dll", 0x10000⟩]

theorem map_fails_iff_faulty :
    ((faulty.map (Array.replicate 0x20 0x90) 0x7ff00000).run (.withStackTop 0x80000)).result =
        .error (.truncated "?" 0x10 0x20 0x20) ∧
      faulty.objections faultyHeader (Array.replicate 0x20 0x90) =
        [.truncated "?" 0x10 0x20 0x20, .addressOverflow 0x100000000,
          .truncated ".rsrc" 0x10 0x20 0x20, .addressOverflow 0x100000000] := by
  have hobjections : faulty.objections faultyHeader (Array.replicate 0x20 0x90) =
      [.truncated "?" 0x10 0x20 0x20, .addressOverflow 0x100000000,
        .truncated ".rsrc" 0x10 0x20 0x20, .addressOverflow 0x100000000] := by decide
  obtain ⟨-, herror, -⟩ := @map_fails_iff faulty faultyHeader (Array.replicate 0x20 0x90) rfl rfl
    (.withStackTop 0x80000) (unprotected_withStackTop 0x80000) 0x7ff00000
  exact ⟨(herror _).mpr (by rw [hobjections]; rfl), hobjections⟩

end Image

end Ia32.Pe
