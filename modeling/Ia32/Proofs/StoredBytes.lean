import Ia32.Proofs.Admission
import Ia32.Proofs.PageClaims
import Ia32.Proofs.ThunkTable

/-!
# The bytes that a mapping stores

* `read8_storeRuns`: of some runs of bytes, the last that has a byte for an address decides.
* `exists_of_mem_importRuns`, `thunk_mem_importRuns`, `slot_mem_importRuns`: **what is stored for
  the imports of an image** is a RET instruction at every address that a name is bound to, and
  in every slot the address of its name.
* `read8_map`: a loaded image reads as its runs of bytes, those of the file first. Protections
  change no byte.
-/

namespace Ia32

namespace ByteRun

/-- The byte that a run has for an address, its places counted around the top of the space. -/
def byte? (run : ByteRun) (x : UInt32) : Option UInt8 := run.bytes[(x - run.address).toNat]?

/-- The run is not long enough to come around to its start. -/
def Short (run : ByteRun) : Prop := run.bytes.length ≤ 0x100000000

variable {run : ByteRun} {x : UInt32}

theorem byte?_eq_none_iff : run.byte? x = none ↔ run.bytes.length ≤ (x - run.address).toNat :=
  List.getElem?_eq_none_iff

theorem lt_of_byte?_eq_some {b : UInt8} (h : run.byte? x = some b) :
    (x - run.address).toNat < run.bytes.length :=
  (List.getElem?_eq_some_iff.mp h).1

/-- A run of one byte. -/
theorem byte?_singleton_eq_some_iff {a : UInt32} {b b' : UInt8} :
    (ByteRun.mk a [b]).byte? x = some b' ↔ x = a ∧ b = b' := by
  have hzero := sub_toNat_eq_zero (a := a) (x := x)
  unfold byte?
  simp [List.getElem?_singleton, hzero]

end ByteRun

namespace Memory

variable {m : Memory} {runs : List ByteRun} {x : UInt32} (hshort : ∀ run ∈ runs, run.Short)

include hshort

/-- **The last run that has a byte for an address decides what it holds.** -/
theorem read8_storeRuns :
    (m.storeRuns runs).read8 x = (runs.filterMap (·.byte? x)).getLast?.getD (m.read8 x) := by
  induction runs generalizing m with
  | nil => rfl
  | cons run runs ih =>
    obtain ⟨hfirst, hrest⟩ := List.forall_mem_cons.mp hshort
    have hread : (m.storeBytes run.address run.bytes).read8 x = (run.byte? x).getD (m.read8 x) :=
      m.read8_storeBytes run.address x hfirst
    -- the first run decides what the others leave
    refine (ih hrest).trans ?_
    rw [hread, List.filterMap_cons]
    cases run.byte? x with
    | none => rfl
    | some b =>
      dsimp only
      rw [List.getLast?_cons]
      rfl

/-- Runs of bytes that agree on an address leave what they agree on, if one of them has it. -/
theorem read8_storeRuns_of_agree {b : UInt8} (hmem : ∃ run ∈ runs, run.byte? x = some b)
    (hagree : ∀ run ∈ runs, ∀ b', run.byte? x = some b' → b' = b) :
    (m.storeRuns runs).read8 x = b := by
  obtain ⟨run, hrun, hbyte⟩ := hmem
  have hb : b ∈ runs.filterMap (·.byte? x) := List.mem_filterMap.mpr ⟨run, hrun, hbyte⟩
  rw [read8_storeRuns hshort, List.getLast?_eq_some_getLast (List.ne_nil_of_mem hb)]
  obtain ⟨run', hrun', hbyte'⟩ := List.mem_filterMap.mp (List.getLast_mem (List.ne_nil_of_mem hb))
  exact hagree run' hrun' _ hbyte'

/-- Runs that have no byte for an address leave it alone. -/
theorem read8_storeRuns_of_forall_none (h : ∀ run ∈ runs, run.byte? x = none) :
    (m.storeRuns runs).read8 x = m.read8 x := by
  rw [read8_storeRuns hshort, List.filterMap_eq_nil_iff.mpr h]
  rfl

end Memory

namespace Pe

open Exec

/-! ## The runs of imports -/

namespace Binding

variable {binding : Binding} {name : String} {a : UInt32}

/-- The instruction that is stored at a thunk. -/
def thunkRun (thunk : UInt32) : ByteRun := ⟨thunk, [0xc3]⟩

/-- The bytes of a slot that points at a thunk. -/
def slotRun (base : UInt32) (i : Import) (thunk : UInt32) : ByteRun :=
  ⟨i.address base, [byte0 thunk, byte1 thunk, byte2 thunk, byte3 thunk]⟩

/-- A slot has four bytes. -/
theorem lt_four_of_byte?_slotRun {base thunk x : UInt32} {i : Import} {b : UInt8}
    (h : (slotRun base i thunk).byte? x = some b) : (x - i.address base).toNat < 4 := by
  simpa [slotRun] using ByteRun.lt_of_byte?_eq_some h

/-- A slot has no byte for an address at least four bytes from its start. -/
theorem byte?_slotRun_eq_none {base thunk x : UInt32} {i : Import}
    (hfar : 4 ≤ x - i.address base) : (slotRun base i thunk).byte? x = none :=
  ByteRun.byte?_eq_none_iff.mpr (UInt32.le_iff_toNat_le.mp hfar)

/-- A slot whose bytes are all there is read as the thunk it points at. -/
theorem read32_of_slotRun {m : Memory} {base : UInt32} {i : Import} {thunk : UInt32}
    (h : ∀ x b, (slotRun base i thunk).byte? x = some b → m.read8 x = b) :
    m.read32 (i.address base) = thunk := by
  have hplace (k : UInt32) (hk : k < 4) : m.read8 (i.address base + k) =
      [byte0 thunk, byte1 thunk, byte2 thunk, byte3 thunk][k.toNat] := by
    refine h _ _ ?_
    have hsub : i.address base + k - i.address base = k := by grind
    rw [ByteRun.byte?, slotRun, hsub]
    exact List.getElem?_eq_getElem _
  have h0 := hplace 0 (by decide)
  rw [UInt32.add_zero] at h0
  rw [Memory.read32, h0, hplace 1 (by decide), hplace 2 (by decide), hplace 3 (by decide)]
  exact dword_bytes thunk

variable {base : UInt32} {i : Import} {imports : List Import} {run : ByteRun}

/-- What is stored for some imports belongs to the addresses that their names end up at. -/
theorem exists_of_mem_runsAlong (h : run ∈ runsAlong Binding.next (runs base) binding imports) :
    (∃ name a, (imports.foldl Binding.next binding).imports.address? name = some a ∧
        run = thunkRun a) ∨
      ∃ i ∈ imports, ∃ a,
        (imports.foldl Binding.next binding).imports.address? i.symbol = some a ∧
          run = slotRun base i a := by
  induction imports generalizing binding with
  | nil => cases h
  | cons i imports ih =>
    -- an address that a name has been given stays its address to the end
    have hfinal := address?_foldl_of_eq_some imports (binding.address?_next i)
    rcases List.mem_append.mp h with h | h
    · rcases List.mem_append.mp h with h | h
      · -- a thunk is stored for a new name alone
        cases hbound : binding.imports.address? i.symbol with
        | some thunk =>
          rw [thunkRuns, hbound] at h
          cases h
        | none =>
          rw [thunkRuns, hbound] at h
          exact .inl ⟨i.symbol, _, address?_foldl_of_new imports hbound, List.mem_singleton.mp h⟩
      · exact .inr ⟨i, List.mem_cons_self, _, hfinal, List.mem_singleton.mp h⟩
    · rcases ih h with hthunk | ⟨j, hj, hslot⟩
      · exact .inl hthunk
      · exact .inr ⟨j, List.mem_cons_of_mem _ hj, hslot⟩

/-- A thunk is stored for every name that is new. -/
theorem thunk_mem_runsAlong (hnew : binding.imports.address? name = none)
    (h : (imports.foldl Binding.next binding).imports.address? name = some a) :
    thunkRun a ∈ runsAlong Binding.next (runs base) binding imports := by
  induction imports generalizing binding with
  | nil =>
    rw [List.foldl_nil, hnew] at h
    cases h
  | cons i imports ih =>
    -- the first import of the name stores its thunk, and those before it leave the name unbound
    by_cases hname : i.symbol = name
    · subst hname
      rw [address?_foldl_of_new imports hnew, Option.some.injEq] at h
      subst h
      refine List.mem_append_left _ (List.mem_append_left _ ?_)
      rw [thunkRuns, hnew]
      exact List.mem_singleton_self _
    · refine List.mem_append_right _ (ih ?_ h)
      cases hbound : binding.imports.address? i.symbol with
      | some thunk => rwa [next_of_eq_some hbound]
      | none =>
        rw [next_of_eq_none hbound]
        exact (Imports.address?_insert _ _ _ _).trans ((if_neg hname).trans hnew)

/-- Every slot is pointed at the address that its name ends up at. -/
theorem slot_mem_runsAlong (hi : i ∈ imports) : ∃ a,
    (imports.foldl Binding.next binding).imports.address? i.symbol = some a ∧
      slotRun base i a ∈ runsAlong Binding.next (runs base) binding imports := by
  induction imports generalizing binding with
  | nil => cases hi
  | cons j imports ih =>
    rcases List.mem_cons.mp hi with rfl | hi
    · exact ⟨_, address?_foldl_of_eq_some imports (binding.address?_next i),
        List.mem_append_left _ (List.mem_append_right _ (List.mem_singleton_self _))⟩
    · obtain ⟨a, ha, hmem⟩ := @ih (binding.next j) hi
      exact ⟨a, ha, List.mem_append_right _ hmem⟩

end Binding

namespace Image

open Binding

variable (image : Image) (header : Header32) (file : Bytes) (thunkBase : UInt32)

/-- What is stored of the file. -/
def fileRuns : List ByteRun :=
  ⟨header.base, headerBytes header file⟩ :: image.sections.map (·.run file header.base)

/-- What is stored for the imports. -/
def importRuns : List ByteRun :=
  runsAlong Binding.next (Binding.runs header.base) { nextThunk := thunkBase } image.imports

theorem runs_eq : image.runs header file thunkBase =
    image.fileRuns header file ++ image.importRuns header thunkBase := rfl

variable {image} {header} {file} {thunkBase}
variable {run : ByteRun} {name : String} {a : UInt32} {i : Import}

theorem exists_of_mem_importRuns (h : run ∈ image.importRuns header thunkBase) :
    (∃ name a, (image.binding thunkBase).imports.address? name = some a ∧ run = thunkRun a) ∨
      ∃ i ∈ image.imports, ∃ a,
        (image.binding thunkBase).imports.address? i.symbol = some a ∧
          run = slotRun header.base i a :=
  exists_of_mem_runsAlong h

theorem thunk_mem_importRuns
    (h : (image.binding thunkBase).imports.address? name = some a) :
    thunkRun a ∈ image.importRuns header thunkBase :=
  thunk_mem_runsAlong (Imports.address?_empty name) h

theorem slot_mem_importRuns (header : Header32) (thunkBase : UInt32) (hi : i ∈ image.imports) : ∃ a,
    (image.binding thunkBase).imports.address? i.symbol = some a ∧
      slotRun header.base i a ∈ image.importRuns header thunkBase :=
  slot_mem_runsAlong hi

theorem short_of_mem_importRuns (h : run ∈ image.importRuns header thunkBase) : run.Short := by
  rcases exists_of_mem_importRuns h with ⟨_, a, -, rfl⟩ | ⟨i, -, a, -, rfl⟩
  · exact (by decide : 1 ≤ 0x100000000)
  · exact (by decide : 4 ≤ 0x100000000)

/-- The sizes of headers and sections are 32-bit numbers. -/
theorem short_of_mem_fileRuns (h : run ∈ image.fileRuns header file) : run.Short := by
  rcases List.mem_cons.mp h with rfl | h
  · have := header.headerSize.toNat_lt
    simp [ByteRun.Short, headerBytes]
    omega
  · obtain ⟨s, -, rfl⟩ := List.mem_map.mp h
    have := s.rawSize.toNat_lt
    simp [ByteRun.Short, Section.run]
    omega

/-! ## The memory of a loaded image -/

theorem read8_protect (m : Memory) (x : UInt32) :
    (image.protect header file thunkBase m).read8 x = m.read8 x := by
  unfold protect
  dsimp only
  rw [PageClaims.read8_apply]
  split
  · rfl
  · exact m.read8_protect _ _ _ _

/-- **A loaded image reads as its runs of bytes**, those of the file first. -/
theorem read8_map {cpu : Cpu} (hheader : image.header = .ok header)
    (hcheck : image.check header file = .ok ()) (hcpu : cpu.memory.Unprotected) (x : UInt32) :
    ((image.map file thunkBase).run cpu).cpu.memory.read8 x =
      ((cpu.memory.storeRuns (image.fileRuns header file)).storeRuns
        (image.importRuns header thunkBase)).read8 x := by
  rw [(map_run image header file thunkBase hheader hcpu).2 hcheck, ← Memory.storeRuns_append,
    ← runs_eq]
  exact read8_protect _ x

end Image

end Pe

end Ia32
