import Ia32.Proofs.Admission
import Ia32.Proofs.PageClaims
import Ia32.Proofs.ThunkTable

/-!
# The protections of a loaded image

* `protectionAt_protect_thunks`: the pages of the thunks, up to the top of the address space.
* `map_protections`: **every page of a loaded image has the strictest protection of the headers
  and sections that touch it**, and a page that none of them touches is executable if it holds
  thunks and writable otherwise.
-/

namespace Ia32.Pe

namespace Image

/-- The pages of thunks end at the top of the address space. -/
theorem protectionAt_protect_thunks {m : Memory} {thunkBase x : UInt32} {p : Protection}
    {count : Nat} (hcount : count < 0x40000000) :
    (m.protect thunkBase (UInt32.ofNat count * thunkStride) p).protectionAt x =
      if 0 < count ∧ pageNumber thunkBase ≤ pageNumber x ∧
        pageNumber x ≤ min (thunkBase.toNat + 4 * count - 1) 0xffffffff / 0x1000 then p
      else m.protectionAt x := by
  have hsize : (UInt32.ofNat count * thunkStride).toNat = 4 * count := by
    have hstride : thunkStride.toNat = 4 := rfl
    rw [UInt32.toNat_mul, UInt32.toNat_ofNat', hstride]
    omega
  have hbase := thunkBase.toNat_lt
  rw [Memory.protectionAt_protect, hsize]
  refine if_congr ?_ rfl rfl
  unfold pageNumber
  constructor
  · rintro ⟨i, hi, htop, hpage⟩
    omega
  · rintro ⟨hpos, hfirst, hlast⟩
    by_cases hsame : x.toNat / 0x1000 = thunkBase.toNat / 0x1000
    · exact ⟨0, by omega, by omega, by omega⟩
    · -- every page but the first is met at its first address
      exact ⟨x.toNat / 0x1000 * 0x1000 - thunkBase.toNat, by omega, by omega, by omega⟩

/-! ## The protections -/

section Mapped

variable {image : Image} {header : Header32} {file : Bytes} {thunkBase : UInt32} {cpu : Cpu}

/-- The claims of the headers and the sections override the protections of the thunks. -/
theorem protectionAt_map (hcount : image.imports.length < 0x40000000)
    (hheader : image.header = .ok header) (hcheck : image.check header file = .ok ())
    (hcpu : cpu.memory.Unprotected) (x : UInt32) :
    ((image.map file thunkBase).run cpu).cpu.memory.protectionAt x =
      ((PageClaims.ofRanges (image.ranges header file)).claimed? x).getD
        (if image.imports ≠ [] ∧ pageNumber thunkBase ≤ pageNumber x ∧
            pageNumber x ≤ min (thunkBase.toNat + 4 * image.names.card - 1) 0xffffffff / 0x1000
          then .readExecute else .readWrite) := by
  have hstored := hcpu.storeRuns (image.runs header file thunkBase) x
  rw [(map_run image header file thunkBase hheader hcpu).2 hcheck]
  dsimp only [protect]
  rw [PageClaims.protectionAt_apply]
  congr 1
  have hnonempty := image.card_names_eq_zero_iff
  -- without imports there are no thunks to protect
  by_cases hnone : image.imports = []
  · rw [if_pos ((image.isEmpty_binding thunkBase).mpr hnone), hstored, if_neg]
    exact fun h => h.1 hnone
  · have hsmall : image.names.card < 0x40000000 := Nat.lt_of_le_of_lt image.card_names_le hcount
    rw [if_neg (mt (image.isEmpty_binding thunkBase).mp hnone), size_binding,
      protectionAt_protect_thunks hsmall, hstored]
    refine if_congr (and_congr_left fun _ => ?_) rfl rfl
    rw [ne_eq, ← hnonempty, Nat.pos_iff_ne_zero]

theorem strictest_map (thunkBase : UInt32) (hcount : image.imports.length < 0x40000000)
    (hheader : image.header = .ok header) (hcheck : image.check header file = .ok ())
    (hcpu : cpu.memory.Unprotected) {x : UInt32}
    (h : ∃ r ∈ image.ranges header file, r.Touches x) :
    Strictest (image.ranges header file) x
      (((image.map file thunkBase).run cpu).cpu.memory.protectionAt x) := by
  have hsums := PageClaims.sums_ofRanges (image.ranges header file) x
  rw [protectionAt_map hcount hheader hcheck hcpu]
  cases hclaimed : (PageClaims.ofRanges (image.ranges header file)).claimed? x with
  | none =>
    rw [hclaimed] at hsums
    obtain ⟨r, hmem, htouches⟩ := h
    exact absurd htouches (hsums r hmem)
  | some p =>
    rw [hclaimed] at hsums
    exact hsums

theorem protectionAt_map_of_not_touches (hcount : image.imports.length < 0x40000000)
    (hheader : image.header = .ok header) (hcheck : image.check header file = .ok ())
    (hcpu : cpu.memory.Unprotected) {x : UInt32}
    (h : ∀ r ∈ image.ranges header file, ¬r.Touches x) :
    ((image.map file thunkBase).run cpu).cpu.memory.protectionAt x =
      if image.imports ≠ [] ∧ pageNumber thunkBase ≤ pageNumber x ∧
          pageNumber x ≤ min (thunkBase.toNat + 4 * image.names.card - 1) 0xffffffff / 0x1000
        then .readExecute else .readWrite := by
  have hsums := PageClaims.sums_ofRanges (image.ranges header file) x
  rw [protectionAt_map hcount hheader hcheck hcpu]
  cases hclaimed : (PageClaims.ofRanges (image.ranges header file)).claimed? x with
  | none => rfl
  | some p =>
    rw [hclaimed] at hsums
    obtain ⟨⟨r, hmem, htouches, -⟩, -⟩ := hsums
    exact absurd htouches (h r hmem)

end Mapped

end Image

end Ia32.Pe
