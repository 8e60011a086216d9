import Ia32.Proofs.StoredBytes

/-!
# The bytes of a loaded image

* `byte?_headers`, `byte?_run`: the headers and the data of a section have for an address the byte
  of the file that is as far from their start as the address is from theirs in memory.
* `getLast?_fileRuns`: of the sections that cover an address the last one counts, and the headers
  if there is none.
* `map_bytes`: **a loaded image is its file, zero elsewhere**, apart from what is stored for its
  imports.
-/

namespace Ia32.Pe

/-! ## Sections -/

namespace Section

/-- The data of the section covers `x` in memory. It may go on at the bottom of the address
space. -/
def Covers (s : Section) (base x : UInt32) : Prop :=
  (x - base - s.virtualAddress).toNat < s.rawSize.toNat

instance (s : Section) (base x : UInt32) : Decidable (s.Covers base x) :=
  inferInstanceAs (Decidable (_ < _))

/-- The place in the file of the byte that the section has for `x`. -/
def place (s : Section) (base x : UInt32) : Nat :=
  s.rawPointer.toNat + (x - base - s.virtualAddress).toNat

variable {s : Section} {file : Bytes} {base x : UInt32}

theorem place_lt (hdata : s.rawPointer.toNat + s.rawSize.toNat ≤ file.size)
    (hcovers : s.Covers base x) : s.place base x < file.size := by
  unfold Covers at hcovers
  unfold place
  omega

theorem byte?_run (hdata : s.rawPointer.toNat + s.rawSize.toNat ≤ file.size) :
    (s.run file base).byte? x = if s.Covers base x then file[s.place base x]? else none := by
  have hsub : x - (base + s.virtualAddress) = x - base - s.virtualAddress := by grind
  change (file.extract _ _).toList[(x - (base + s.virtualAddress)).toNat]? = _
  rw [hsub, Array.getElem?_toList, Array.getElem?_extract, Nat.min_eq_left hdata,
    Nat.add_sub_cancel_left]
  rfl

end Section

namespace Image

variable {image : Image} {header : Header32} {file : Bytes} {thunkBase x : UInt32}

/-! ## Headers -/

theorem byte?_headers : (ByteRun.mk header.base (headerBytes header file)).byte? x =
    if (x - header.base).toNat < min header.headerSize.toNat file.size then
      file[(x - header.base).toNat]?
    else none := by
  change (file.extract 0 header.headerSize.toNat).toList[(x - header.base).toNat]? = _
  rw [Array.getElem?_toList, Array.getElem?_extract, Nat.sub_zero, Nat.zero_add]

/-! ## The file in memory -/

/-- The byte of the file that a section or the headers have for `x`: the last section that covers
`x` counts, and the headers if there is none. -/
def fileByte? (image : Image) (header : Header32) (file : Bytes) (x : UInt32) : Option UInt8 :=
  match (image.sections.filter (·.Covers header.base x)).getLast? with
  | some s => file[s.place header.base x]?
  | none =>
    if (x - header.base).toNat < min header.headerSize.toNat file.size then
      file[(x - header.base).toNat]?
    else none

/-- What the sections have for `x` is what those that cover it have. -/
theorem filterMap_byte?_sections {sections : List Section} {base : UInt32}
    (hdata : ∀ s ∈ sections, s.rawPointer.toNat + s.rawSize.toNat ≤ file.size) :
    (sections.map (·.run file base)).filterMap (·.byte? x) =
      (sections.filter (·.Covers base x)).map fun s => file[s.place base x]?.getD 0 := by
  induction sections with
  | nil => rfl
  | cons s sections ih =>
    obtain ⟨hfirst, hrest⟩ := List.forall_mem_cons.mp hdata
    rw [List.map_cons, List.filterMap_cons, Section.byte?_run hfirst, ih hrest]
    by_cases hcovers : s.Covers base x
    · have hlt := Section.place_lt hfirst hcovers
      simp [hcovers, hlt]
    · simp [hcovers]

theorem getElem?_place_of_mem {s : Section} (h : image.Admissible header file)
    (hmem : s ∈ image.sections.filter (·.Covers header.base x)) :
    file[s.place header.base x]? = some (file[s.place header.base x]?.getD 0) := by
  rw [List.mem_filter, decide_eq_true_eq] at hmem
  have hlt := Section.place_lt (h.rawData s hmem.1) hmem.2
  rw [Array.getElem?_eq_getElem hlt]
  rfl

/-- **Of the sections that cover an address the last one counts**, and the headers if there is
none. -/
theorem getLast?_fileRuns (h : image.Admissible header file) :
    ((image.fileRuns header file).filterMap (·.byte? x)).getLast? =
      image.fileByte? header file x := by
  rw [fileRuns, List.filterMap_cons, filterMap_byte?_sections h.rawData, fileByte?,
    ← byte?_headers]
  -- the headers are stored first, so that their byte is last only if no section has one
  cases hlast : (image.sections.filter (·.Covers header.base x)).getLast? with
  | none =>
    rw [List.getLast?_eq_none_iff.mp hlast]
    cases (ByteRun.mk header.base (headerBytes header file)).byte? x <;> rfl
  | some s =>
    have hmap : ((image.sections.filter (·.Covers header.base x)).map
        fun s => file[s.place header.base x]?.getD 0).getLast? =
          some (file[s.place header.base x]?.getD 0) := by
      rw [List.getLast?_map, hlast]
      rfl
    dsimp only
    rw [getElem?_place_of_mem h (List.mem_of_getLast? hlast)]
    cases (ByteRun.mk header.base (headerBytes header file)).byte? x with
    | none => exact hmap
    | some b =>
      dsimp only
      rw [List.getLast?_cons, hmap]
      rfl

/-- The file has a byte for what its sections cover and for its headers. -/
theorem isSome_fileByte?_iff (h : image.Admissible header file) :
    (image.fileByte? header file x).isSome ↔ (∃ s ∈ image.sections, s.Covers header.base x) ∨
      (x - header.base).toNat < min header.headerSize.toNat file.size := by
  unfold fileByte?
  -- the headers count only where no section covers the address
  cases hlast : (image.sections.filter (·.Covers header.base x)).getLast? with
  | some s =>
    have hmem := List.mem_of_getLast? hlast
    dsimp only
    rw [getElem?_place_of_mem h hmem]
    rw [List.mem_filter, decide_eq_true_eq] at hmem
    exact iff_of_true rfl (.inl ⟨s, hmem⟩)
  | none =>
    have hnone : ¬∃ s ∈ image.sections, s.Covers header.base x := by
      simpa using List.getLast?_eq_none_iff.mp hlast
    rw [or_iff_right hnone]
    by_cases hheaders : (x - header.base).toNat < min header.headerSize.toNat file.size
    · have hlt : (x - header.base).toNat < file.size := by omega
      simp [hheaders, hlt]
    · simp [hheaders]

section Mapped

variable {cpu : Cpu}

/-- Away from slots and thunks, what is stored for the imports has no byte. -/
theorem byte?_importRuns_eq_none (hslots : ∀ i ∈ image.imports, 4 ≤ x - i.address header.base)
    (hthunks : ∀ name, (image.binding thunkBase).imports.address? name ≠ some x) {run : ByteRun}
    (hrun : run ∈ image.importRuns header thunkBase) : run.byte? x = none := by
  rw [Option.eq_none_iff_forall_ne_some]
  intro b hb
  rcases exists_of_mem_importRuns hrun with ⟨name, a, ha, rfl⟩ | ⟨i, hi, a, -, rfl⟩
  · obtain ⟨rfl, -⟩ := ByteRun.byte?_singleton_eq_some_iff.mp hb
    exact hthunks name ha
  · rw [Binding.byte?_slotRun_eq_none (hslots i hi)] at hb
    cases hb

theorem read8_map_of_untouched (hheader : image.header = .ok header)
    (hcheck : image.check header file = .ok ()) (hcpu : cpu.memory.Unprotected)
    (hslots : ∀ i ∈ image.imports, 4 ≤ x - i.address header.base)
    (hthunks : ∀ name, (image.binding thunkBase).imports.address? name ≠ some x) :
    ((image.map file thunkBase).run cpu).cpu.memory.read8 x =
      (image.fileByte? header file x).getD (cpu.memory.read8 x) := by
  rw [read8_map hheader hcheck hcpu,
    Memory.read8_storeRuns_of_forall_none (fun _ hrun => short_of_mem_importRuns hrun)
      fun _ hrun => byte?_importRuns_eq_none hslots hthunks hrun,
    Memory.read8_storeRuns fun _ hrun => short_of_mem_fileRuns hrun,
    getLast?_fileRuns (check_eq_ok_iff.mp hcheck)]

end Mapped

/-- **A loaded image is its file, zero elsewhere.** In a processor as a sandbox sets it up, every
address that is neither in a slot nor a thunk holds the byte that the file has for it: that of
the last section whose data covers it, else that of the headers. Any other holds zero. The entry
point is at its place from the base. -/
theorem map_bytes {image : Image} {file : Bytes} {thunkBase top : UInt32} {loaded : LoadedImage}
    (hloaded : ((image.map file thunkBase).run (.withStackTop top)).result = .ok loaded) :
    let memory := ((image.map file thunkBase).run (.withStackTop top)).cpu.memory
    ∃ header, image.header = .ok header ∧ loaded.base = header.base ∧
      loaded.entry.toNat = header.base.toNat + header.entry.toNat ∧
      ∀ x, (∀ i ∈ image.imports, 4 ≤ x - i.address header.base) →
        (∀ name, loaded.imports.address? name ≠ some x) →
          memory.read8 x = (image.fileByte? header file x).getD 0 ∧
            ((image.fileByte? header file x).isSome ↔
              (∃ s ∈ image.sections, s.Covers header.base x) ∨
                (x - header.base).toNat < min header.headerSize.toNat file.size) := by
  intro memory
  have hcpu := unprotected_withStackTop top
  obtain ⟨header, hheader, hcheck, rfl⟩ := exists_check hcpu hloaded
  have hadmissible := check_eq_ok_iff.mp hcheck
  refine ⟨header, hheader, rfl, ?_, fun x hslots hthunks => ⟨?_, isSome_fileByte?_iff hadmissible⟩⟩
  · have := hadmissible.entry
    change (header.base + header.entry).toNat = _
    rw [UInt32.toNat_add]
    omega
  · have hempty : (Cpu.withStackTop top).memory.read8 x = 0 := Memory.read8_empty x
    rw [read8_map_of_untouched hheader hcheck hcpu hslots hthunks, hempty]

/-- The header of `stacked`. -/
def stackedHeader : Header32 := ⟨0xfffffff8, 0, 12⟩

/-- An image at the top of the address space. Its second section covers the end of the first one
and goes on at the bottom, where the headers end. -/
def stacked : Image where
  machine := machine386
  optional := some (.pe32 stackedHeader)
  sections := [⟨some ".text", 4, 4, 4, 8, 0x60000020⟩, ⟨some ".data", 0, 6, 4, 12, 0xc0000040⟩]
  imports := [⟨"Sleep", "KERNEL32.dll", 0⟩]

/-- The file of `stacked`. -/
def stackedFile : Bytes :=
  #[0x4d, 0x5a, 2, 3, 4, 5, 6, 7, 8, 9, 10, 11, 12, 13, 14, 15]

theorem map_bytes_stacked :
    let loading := (stacked.map stackedFile 0x500000).run (.withStackTop 0x80000)
    loading.result = .ok (stacked.loaded stackedHeader 0x500000) ∧
      loading.cpu.memory.read8 0xfffffffd = 9 ∧ loading.cpu.memory.read8 0xffffffff = 13 ∧
      loading.cpu.memory.read8 0 = 14 ∧ loading.cpu.memory.read8 2 = 10 ∧
      loading.cpu.memory.read8 4 = 0 := by
  intro loading
  have hresult : loading.result = .ok (stacked.loaded stackedHeader 0x500000) := by
    rw [(map_run stacked stackedHeader stackedFile 0x500000 rfl
      (unprotected_withStackTop 0x80000)).1]
    rfl
  obtain ⟨header, hheader, -, -, hbytes⟩ := map_bytes hresult
  obtain rfl : header = stackedHeader := by cases hheader; rfl
  have hread (x : UInt32) (hslots : ∀ i ∈ stacked.imports, 4 ≤ x - i.address 0xfffffff8)
      (hx : x ≠ 0x500000) : loading.cpu.memory.read8 x =
        (stacked.fileByte? stackedHeader stackedFile x).getD 0 :=
    (hbytes x hslots fun _ h => hx (eq_of_card_names_eq_one 0x500000 (by decide) h)).1
  refine ⟨hresult, ?_, ?_, ?_, ?_, ?_⟩
  all_goals
    rw [hread _ (by decide) (by decide)]
    rfl

end Image

end Ia32.Pe
