import Ia32.Proofs.LoadedBytes
import Ia32.Proofs.LoadedProtections
import Ia32.Proofs.Requests

/-!
# What a load leaves

A load that succeeds leaves a processor in which nothing has happened yet: apart from the memory
that the image has been mapped into and the entry point in EIP it is a new one. This holds of any
record that a file is taken for (`Sandbox.mount`), whether or not it is what the file says.

* `cpu_mount`: **the processor after a load.**
* `read8_mount`, `protectionAt_mount`: the memory of a program that imports nothing.
* `codeFile`: a file with some bytes of code, for examples.
-/

namespace Ia32.Sandbox

variable {σ : Type} {s : Sandbox σ} {image : Pe.Image} {file : Pe.Bytes} {loaded : LoadedImage}

/-- **A load leaves a new processor**, but for its memory and the entry point. -/
theorem cpu_mount (h : (s.mount image file).result = .ok loaded) :
    ∃ memory, (s.mount image file).sandbox.cpu =
      { Cpu.withStackTop s.config.stackTop with memory, eip := loaded.entry } := by
  have hcpu := Pe.Image.unprotected_withStackTop s.config.stackTop
  have hmapped := h
  rw [result_mount] at hmapped
  obtain ⟨header, hheader, hcheck, -⟩ := Pe.Image.exists_check hcpu hmapped
  obtain ⟨-, hafter⟩ :=
    Pe.Image.map_run image header file s.config.thunkBase hheader hcpu
  rw [mount, sandbox_install_of_ok h, hafter hcheck]
  exact ⟨_, rfl⟩

/-! ## Programs that import nothing -/

section NoImports

variable {header : Pe.Header32} (hheader : image.header = .ok header)
  (hcheck : image.check header file = .ok ()) (himports : image.imports = [])

include hheader hcheck himports

theorem result_mount_of_no_imports :
    (s.mount image file).result = .ok ⟨header.base + header.entry, header.base, ∅⟩ := by
  rw [result_mount_of_header hheader, hcheck]
  simp [Except.map, Pe.Image.loaded, Pe.Image.binding, himports]

theorem memory_mount : (s.mount image file).sandbox.cpu.memory =
    ((image.map file s.config.thunkBase).run (.withStackTop s.config.stackTop)).cpu.memory :=
  (mount_of_ok (result_mount_of_no_imports hheader hcheck himports)).2

/-- The memory holds the file and zeros. -/
theorem read8_mount (x : UInt32) : (s.mount image file).sandbox.cpu.memory.read8 x =
    (image.fileByte? header file x).getD 0 := by
  have hcpu := Pe.Image.unprotected_withStackTop s.config.stackTop
  rw [memory_mount hheader hcheck himports,
    Pe.Image.read8_map_of_untouched hheader hcheck hcpu]
  · rw [Cpu.withStackTop, Memory.read8_empty]
  · simp [himports]
  · simp [Pe.Image.binding, himports]

/-- Only the pages of the file are protected. -/
theorem protectionAt_mount {x : UInt32} (h : ∀ r ∈ image.ranges header file, ¬ r.Touches x) :
    (s.mount image file).sandbox.cpu.memory.protectionAt x = .readWrite := by
  have hcpu := Pe.Image.unprotected_withStackTop s.config.stackTop
  have hcount : image.imports.length < 0x40000000 := by
    rw [himports]
    exact Nat.zero_lt_succ _
  rw [memory_mount hheader hcheck himports,
    Pe.Image.protectionAt_map_of_not_touches hcount hheader hcheck hcpu h]
  simp [himports]

end NoImports

/-- A file with one section, which holds the bytes of code and is loaded at 401000h. -/
def codeFile (code : List UInt8) : Pe.Bytes :=
  let size := UInt8.ofNat code.length
  ((haltFile.pop.set! 0x84 size).set! 0x8c size) ++ code.toArray

/-- The section of `codeFile`. -/
def codeSection (code : List UInt8) : Pe.Section :=
  let size := UInt32.ofNat code.length
  { name := some ".text", virtualSize := size, virtualAddress := 0x1000, rawSize := size,
    rawPointer := 0xa4, characteristics := 0x60000020 }

/-- What `codeFile` says. -/
def codeImage (code : List UInt8) : Pe.Image := { haltImage with sections := [codeSection code] }

/-- The header of `codeImage`. -/
def codeHeader : Pe.Header32 := ⟨0x400000, 0x1000, 0x80⟩

/-- The file with the bytes of code is one that is loaded. -/
structure Loadable (code : List UInt8) : Prop where
  admissible : (codeImage code).Admissible codeHeader (codeFile code)
  short : code.length ≤ 0x1000

/-- The sandbox `s'` is what `s` is after the bytes of code have been loaded into it. -/
structure CodeLoaded (code : List UInt8) (s s' : Sandbox σ) : Prop where
  cpu : ∃ memory, s'.cpu = { Cpu.withStackTop s.config.stackTop with memory, eip := 0x401000 }
  /-- From 401000h on there is the code, and zeros behind it. -/
  read8 : ∀ x, 0x401000 ≤ x → s'.cpu.memory.read8 x = code[(x - 0x401000).toNat]?.getD 0
  /-- All that lies below the image can be stored to. -/
  protectionAt : ∀ x, pageNumber x < 0x400 → s'.cpu.memory.protectionAt x = .readWrite
  /-- The rest is the same, except that nothing is imported. -/
  rest : s' = { s with
    cpu := s'.cpu
    linkage := { s.linkage with imports := ∅ }
    image := some ⟨0x401000, 0x400000, ∅⟩ }

section Code

variable {code : List UInt8} {x : UInt32}

/-- The code stands at the end of the file. -/
theorem getElem?_codeFile (code : List UInt8) (i : Nat) :
    (codeFile code)[0xa4 + i]? = code[i]? := by
  have hsize : haltFile.pop.size = 0xa4 := by decide +kernel
  unfold codeFile
  rw [Array.getElem?_append_right (by simp [hsize]), List.getElem?_toArray]
  simp [hsize]

/-- The data of the section is the code, and the headers end before it. -/
theorem fileByte?_codeImage (hshort : code.length ≤ 0x1000) (hx : 0x401000 ≤ x) :
    (codeImage code).fileByte? codeHeader (codeFile code) x = code[(x - 0x401000).toNat]? := by
  have hoffset : x - 0x400000 - 0x1000 = x - 0x401000 := by grind
  have hlength : (codeSection code).rawSize.toNat = code.length := by
    change code.length % 0x100000000 = code.length
    omega
  have hcovers : (codeSection code).Covers codeHeader.base x ↔
      (x - 0x401000).toNat < code.length := by
    rw [Pe.Section.Covers, hlength, ← hoffset]
    rfl
  have hheaders : ¬ (x - 0x400000).toNat < min 0x80 (codeFile code).size := by
    have hbelow : (0x401000 : UInt32).toNat ≤ x.toNat := UInt32.le_iff_toNat_le.mp hx
    have hx' := x.toNat_lt
    rw [UInt32.toNat_sub]
    simp only [UInt32.reduceToNat] at hbelow ⊢
    omega
  have hsections : (codeImage code).sections = [codeSection code] := rfl
  rw [Pe.Image.fileByte?, hsections]
  by_cases hcode : (x - 0x401000).toNat < code.length
  · rw [List.filter_singleton, decide_eq_true (hcovers.mpr hcode)]
    change (codeFile code)[0xa4 + (x - 0x400000 - 0x1000).toNat]? = _
    rw [hoffset, getElem?_codeFile]
  · rw [List.filter_singleton, decide_eq_false (mt hcovers.mp hcode),
      List.getElem?_eq_none (Nat.not_lt.mp hcode)]
    exact if_neg hheaders

/-- The headers and a page of code lie on two pages. -/
theorem touches_codeImage (hshort : code.length ≤ 0x1000) {file : Pe.Bytes} {r : Pe.PageRange}
    (hr : r ∈ (codeImage code).ranges codeHeader file) (h : r.Touches x) :
    pageNumber x = 0x400 ∨ pageNumber x = 0x401 := by
  have hheaders : (Pe.Image.headerBytes codeHeader file).length ≤ 0x80 := by
    show (file.extract 0 0x80).toList.length ≤ 0x80
    rw [Array.length_toList, Array.size_extract]
    omega
  have hsize : (UInt32.ofNat code.length).toNat ≤ 0x1000 := by
    rw [UInt32.toNat_ofNat']
    omega
  obtain ⟨i, hi, hpage⟩ := h
  rw [pageNumber_add] at hpage
  -- the ranges are that of the headers and that of the section
  rcases List.mem_cons.mp hr with rfl | hcode
  · left
    have hi' : i < (Pe.Image.headerBytes codeHeader file).length % 0x100000000 := by
      rwa [UInt32.toNat_ofNat'] at hi
    have hbase : codeHeader.base.toNat = 0x400000 := rfl
    dsimp only at hpage
    omega
  · right
    obtain rfl := List.mem_singleton.mp hcode
    have hspan (v : UInt32) : max v v = v := ite_self v
    have hi' : i < (max (UInt32.ofNat code.length) (UInt32.ofNat code.length)).toNat := hi
    have haddress : (codeHeader.base + 0x1000).toNat = 0x401000 := rfl
    rw [hspan] at hi'
    change ((codeHeader.base + 0x1000).toNat + i) / 0x1000 % 0x100000 = pageNumber x at hpage
    omega

namespace Loadable

variable (h : Loadable code)

include h

theorem result_mount (s : Sandbox σ) :
    (s.mount (codeImage code) (codeFile code)).result = .ok ⟨0x401000, 0x400000, ∅⟩ :=
  result_mount_of_no_imports rfl (Pe.Image.check_eq_ok_iff.mpr h.admissible) rfl

/-- **The bytes of code are loaded.** -/
theorem codeLoaded (s : Sandbox σ) :
    CodeLoaded code s (s.mount (codeImage code) (codeFile code)).sandbox := by
  have hresult := h.result_mount s
  have hheader : (codeImage code).header = .ok codeHeader := rfl
  have hcheck := Pe.Image.check_eq_ok_iff.mpr h.admissible
  refine ⟨cpu_mount hresult, fun x hx => ?_, fun x hx => ?_, ?_⟩
  · rw [read8_mount hheader hcheck rfl, fileByte?_codeImage h.short hx]
  · refine protectionAt_mount hheader hcheck rfl fun r hr htouches => ?_
    have hpage := touches_codeImage h.short hr htouches
    omega
  · rw [mount, sandbox_install_of_ok hresult]

end Loadable

namespace CodeLoaded

variable {s s' : Sandbox σ} (h : CodeLoaded code s s')

include h

theorem eip : s'.cpu.eip = 0x401000 := by
  obtain ⟨memory, hcpu⟩ := h.cpu
  rw [hcpu]

theorem esp : s'.cpu.esp = s.config.stackTop := by
  obtain ⟨memory, hcpu⟩ := h.cpu
  rw [hcpu, Cpu.withStackTop]

theorem linkage : s'.linkage = { s.linkage with imports := ∅ } := by
  rw [h.rest]

theorem instructions : s'.instructions = s.instructions := by
  rw [h.rest]

end CodeLoaded

end Code

end Ia32.Sandbox
