import Ia32.Proofs.Paging
import Mathlib.Data.Finset.Card
import Mathlib.Data.Finset.Image

/-!
# Sparse memory is flat memory

`FlatMemory` is what the sparse memory stands for: 2^32 cells that are zero at first, one
protection for every page, and stores that take place in full or not at all. It also keeps
the pages that stores have touched.

* `Memory.Refines m f`: the sparse memory `m` shows what `f` holds.
* `agree_run`: one operation keeps this, and is refused by both or by neither.
* `memory_refines_flat`: **after any operations, the sparse memory reads as the flat one**,
  and its resident pages are those that stores have touched.
-/

namespace Ia32

/-- A flat memory. Pages are numbered from the bottom of the address space. -/
@[ext]
structure FlatMemory where
  cells : UInt32 → UInt8 := fun _ => 0
  protection : Nat → Protection := fun _ => .readWrite
  touched : Finset Nat := ∅

namespace FlatMemory

/-- Puts a run of bytes into the cells from `a` on, around the top of the space if need be. -/
def put (f : FlatMemory) (a : UInt32) (bytes : List UInt8) : FlatMemory :=
  { f with
    cells x := bytes[(x - a).toNat]?.getD (f.cells x)
    touched := f.touched ∪
      (Finset.range bytes.length).image fun i => pageNumber (a + UInt32.ofNat i) }

/-- Puts a run of bytes if every one of them lies on a page that is writable. -/
def write (f : FlatMemory) (a : UInt32) (bytes : List UInt8) : Option FlatMemory :=
  if ∀ i < bytes.length, f.protection (pageNumber (a + UInt32.ofNat i)) = .readWrite then
    some (f.put a bytes)
  else none

/-- Sets the protection of every page that one of the `size` addresses from `a` on lies on;
those past the top of the space count for nothing. -/
def protect (f : FlatMemory) (a size : UInt32) (p : Protection) : FlatMemory :=
  { f with
    protection n :=
      if ∃ i < size.toNat, a.toNat + i < 0x100000000 ∧ n = (a.toNat + i) / 0x1000 then p
      else f.protection n }

end FlatMemory

/-- The bytes of a dword, lowest first. -/
def littleEndian (v : UInt32) : List UInt8 :=
  [v.toUInt8, (v >>> 8).toUInt8, (v >>> 16).toUInt8, (v >>> 24).toUInt8]

/-- The operations that change a memory. -/
inductive MemoryOp where
  | write8 (a : UInt32) (b : UInt8)
  | write32 (a v : UInt32)
  | writeBytes (a : UInt32) (bytes : List UInt8) (short : bytes.length < 0x100000000)
  | protect (a size : UInt32) (p : Protection)

namespace MemoryOp

/-- The operation on a sparse memory. -/
def run (m : Memory) : MemoryOp → Except AccessViolation Memory
  | write8 a b => m.write8 a b
  | write32 a v => m.write32 a v
  | writeBytes a bytes _ => m.writeBytes a bytes
  | protect a size p => .ok (m.protect a size p)

/-- The operation on a flat memory. -/
def runFlat (f : FlatMemory) : MemoryOp → Option FlatMemory
  | write8 a b => f.write a [b]
  | write32 a v => f.write a (littleEndian v)
  | writeBytes a bytes _ => f.write a bytes
  | protect a size p => some (f.protect a size p)

end MemoryOp

/-- The sparse memory after some operations, those that are refused left out. -/
def Memory.after (ops : List MemoryOp) : Memory :=
  ops.foldl (fun m op => (op.run m).toOption.getD m) {}

/-- The flat memory after some operations, those that are refused left out. -/
def FlatMemory.after (ops : List MemoryOp) : FlatMemory :=
  ops.foldl (fun f op => (op.runFlat f).getD f) {}

/-- The sparse memory shows what the flat one holds. -/
structure Memory.Refines (m : Memory) (f : FlatMemory) : Prop where
  read8 : ∀ x, m.read8 x = f.cells x
  protectionAt : ∀ x, m.protectionAt x = f.protection (pageNumber x)
  mem_pages : ∀ x, pageBase x ∈ m.pages ↔ pageNumber x ∈ f.touched
  residentPages : m.residentPages = f.touched.card

/-! ## Stores -/

namespace FlatMemory

variable {f : FlatMemory} {a : UInt32}

theorem put_nil : f.put a [] = f := by
  simp [put]

theorem cells_put_singleton (b : UInt8) (x : UInt32) :
    (f.put a [b]).cells x = if x = a then b else f.cells x := by
  unfold put
  by_cases hx : x = a
  · rw [if_pos hx]
    simp [hx]
  · have hne := mt sub_toNat_eq_zero.mp hx
    rw [if_neg hx]
    dsimp only
    rw [List.getElem?_eq_none (by simp; omega)]
    rfl

theorem touched_put_singleton (b : UInt8) :
    (f.put a [b]).touched = insert (pageNumber a) f.touched := by
  simp [put]

/-- A run of bytes is put byte by byte. It is not long enough to come around to its start. -/
theorem put_cons (b : UInt8) {bytes : List UInt8} (hshort : bytes.length < 0x100000000) :
    f.put a (b :: bytes) = (f.put a [b]).put (a + 1) bytes := by
  -- the bytes and the touched pages are the same on both sides
  have hcells (x : UInt32) : (f.put a (b :: bytes)).cells x =
      ((f.put a [b]).put (a + 1) bytes).cells x := by
    change (b :: bytes)[(x - a).toNat]?.getD (f.cells x) =
      bytes[(x - (a + 1)).toNat]?.getD ((f.put a [b]).cells x)
    rw [cells_put_singleton, getD_cons_sub b _ hshort]
  have htouched : (f.put a (b :: bytes)).touched =
      ((f.put a [b]).put (a + 1) bytes).touched := by
    ext n
    change n ∈ f.touched ∪ _ ↔ n ∈ (f.put a [b]).touched ∪ _
    rw [touched_put_singleton]
    simp only [Finset.mem_union, Finset.mem_insert, Finset.mem_image, Finset.mem_range,
      add_one_add_ofNat,
      List.length_cons]
    constructor
    · rintro (h | ⟨i, hi, rfl⟩)
      · exact .inl (.inr h)
      · cases i with
        | zero => exact .inl (.inl (by simp))
        | succ i => exact .inr ⟨i, by omega, rfl⟩
    · rintro ((rfl | h) | ⟨i, hi, rfl⟩)
      · exact .inr ⟨0, by omega, by simp⟩
      · exact .inl h
      · exact .inr ⟨i + 1, by omega, rfl⟩
  exact FlatMemory.ext (funext hcells) rfl htouched

end FlatMemory

namespace Memory.Refines

variable {m : Memory} {f : FlatMemory} (h : m.Refines f)

theorem empty : ({} : Memory).Refines {} where
  read8 x := by simp
  protectionAt x := by simp
  mem_pages x := by simp
  residentPages := by simp [Memory.residentPages]

include h

theorem store8 (a : UInt32) (b : UInt8) : (m.store8 a b).Refines (f.put a [b]) where
  read8 x := by rw [read8_store8, FlatMemory.cells_put_singleton, h.read8]
  protectionAt x := by rw [protectionAt_store8, h.protectionAt]; rfl
  mem_pages x := by
    rw [mem_pages_store8, FlatMemory.touched_put_singleton, Finset.mem_insert, h.mem_pages]
  residentPages := by
    rw [residentPages_store8, FlatMemory.touched_put_singleton, h.residentPages]
    by_cases hpage : pageNumber a ∈ f.touched
    · rw [if_pos ((h.mem_pages a).mpr hpage), Finset.insert_eq_of_mem hpage]
    · rw [if_neg (mt (h.mem_pages a).mp hpage), Finset.card_insert_of_notMem hpage]

theorem storeBytes (a : UInt32) {bytes : List UInt8} (hshort : bytes.length ≤ 0x100000000) :
    (m.storeBytes a bytes).Refines (f.put a bytes) := by
  induction bytes generalizing m f a with
  | nil =>
    rw [FlatMemory.put_nil]
    exact h
  | cons b bytes ih =>
    rw [List.length_cons] at hshort
    rw [Memory.storeBytes, FlatMemory.put_cons b (by omega)]
    exact ih (h.store8 a b) (a + 1) (by omega)

theorem protect (a size : UInt32) (p : Protection) :
    (m.protect a size p).Refines (f.protect a size p) where
  read8 x := by
    rw [read8_protect]
    exact h.read8 x
  protectionAt x := by
    rw [protectionAt_protect, h.protectionAt]
    rfl
  mem_pages x := by
    rw [pages_protect]
    exact h.mem_pages x
  residentPages := by
    rw [residentPages_protect]
    exact h.residentPages

end Memory.Refines

/-! ## Operations -/

/-- What an operation gives on the two memories: both refuse it, or both carry it out and
go on agreeing. -/
inductive Agree : Except AccessViolation Memory → Option FlatMemory → Prop where
  | carriedOut {m : Memory} {f : FlatMemory} : m.Refines f → Agree (.ok m) (some f)
  | refused (v : AccessViolation) : Agree (.error v) none

/-- The bytes of a dword are those that are stored. -/
theorem littleEndian_eq (v : UInt32) : littleEndian v = [byte0 v, byte1 v, byte2 v, byte3 v] := by
  have h1 : (v >>> 8).toUInt8 = byte1 v := by
    rw [← UInt8.toNat_inj, toNat_byte1]
    simp [Nat.shiftRight_eq_div_pow]
  have h2 : (v >>> 16).toUInt8 = byte2 v := by
    rw [← UInt8.toNat_inj, toNat_byte2]
    simp [Nat.shiftRight_eq_div_pow]
  have h3 : (v >>> 24).toUInt8 = byte3 v := by
    rw [← UInt8.toNat_inj, toNat_byte3]
    simp [Nat.shiftRight_eq_div_pow]
  rw [littleEndian, h1, h2, h3]
  rfl

theorem Memory.storeBytes_littleEndian (m : Memory) (a v : UInt32) :
    m.storeBytes a (littleEndian v) = m.store32 a v := by
  rw [littleEndian_eq, store32_eq_storeBytes]

section Operations

variable {m : Memory} {f : FlatMemory} (h : m.Refines f)

include h in
/-- A guarded store agrees with the flat one if it is checked wherever it stores. -/
theorem agree_guarded {as : List UInt32} {a : UInt32} {bytes : List UInt8}
    (hshort : bytes.length ≤ 0x100000000)
    (hchecked : (∀ x ∈ as, m.protectionAt x = .readWrite) ↔
      ∀ i < bytes.length, m.protectionAt (a + UInt32.ofNat i) = .readWrite) :
    Agree (m.guarded as (·.storeBytes a bytes)) (f.write a bytes) := by
  simp only [h.protectionAt] at hchecked
  unfold FlatMemory.write
  cases hdenial : m.denial? as with
  | none =>
    have hall := (m.denial?_eq_none_iff).mp hdenial
    simp only [h.protectionAt] at hall
    rw [if_pos (hchecked.mp hall), Memory.guarded, hdenial]
    exact .carriedOut (h.storeBytes a hshort)
  | some v =>
    have hsome : ¬ ∀ x ∈ as, f.protection (pageNumber x) = .readWrite := by
      intro hall
      simp only [← h.protectionAt] at hall
      rw [(m.denial?_eq_none_iff).mpr hall] at hdenial
      cases hdenial
    rw [if_neg (mt hchecked.mpr hsome), Memory.guarded, hdenial]
    exact .refused v

/-- The four addresses at which a dword is checked are those of its bytes. -/
theorem forall_dword_iff {a : UInt32} {P : UInt32 → Prop} :
    (∀ x ∈ [a, a + 1, a + 2, a + 3], P x) ↔ ∀ i < 4, P (a + UInt32.ofNat i) := by
  have h0 : a + UInt32.ofNat 0 = a := by simp
  constructor
  · intro hall i hi
    obtain rfl | rfl | rfl | rfl : i = 0 ∨ i = 1 ∨ i = 2 ∨ i = 3 := by omega
    · rw [h0]
      exact hall a (by simp)
    · exact hall (a + 1) (by simp)
    · exact hall (a + 2) (by simp)
    · exact hall (a + 3) (by simp)
  · intro hall
    simp only [List.forall_mem_cons]
    refine ⟨?_, hall 1 (by omega), hall 2 (by omega), hall 3 (by omega), List.forall_mem_nil _⟩
    rw [← h0]
    exact hall 0 (by omega)

include h in
/-- **One operation** is refused by both memories or by neither, and keeps them in
agreement. -/
theorem agree_run (op : MemoryOp) : Agree (op.run m) (op.runFlat f) := by
  cases op with
  | write8 a b =>
    change Agree (m.guarded [a] (·.storeBytes a [b])) (f.write a [b])
    refine agree_guarded h (by simp) ?_
    simp
  | write32 a v =>
    have hwrite : (MemoryOp.write32 a v).run m =
        m.guarded [a, a + 1, a + 2, a + 3] (·.storeBytes a (littleEndian v)) := by
      simp only [Memory.storeBytes_littleEndian]
      rfl
    rw [hwrite]
    exact agree_guarded h (by simp [littleEndian]) forall_dword_iff
  -- here it matters that the probes leave no page of the run out
  | writeBytes a bytes hshort => exact agree_guarded h (by omega) Memory.forall_probes_iff
  | protect a size p => exact .carriedOut (h.protect a size p)

include h in
/-- **Any number of operations** keeps the memories in agreement. -/
theorem refines_foldl (ops : List MemoryOp) :
    (ops.foldl (fun m op => (op.run m).toOption.getD m) m).Refines
      (ops.foldl (fun f op => (op.runFlat f).getD f) f) := by
  induction ops generalizing m f with
  | nil => exact h
  | cons op ops ih =>
    have hagree := agree_run h op
    rw [List.foldl_cons, List.foldl_cons]
    generalize op.run m = result, op.runFlat f = result' at hagree
    -- an operation that is refused leaves both memories as they are
    cases hagree with
    | carriedOut h' => exact ih h'
    | refused v => exact ih h

end Operations

/-- **The sparse memory is the flat one.** After any sequence of operations, every byte that
is read is the cell of the flat memory, words and dwords are the little-endian sums of the
cells from their address on, around the top of the space, every page has the same protection,
and there are as many resident pages as pages that accepted stores have touched. The operation
after that is refused by both memories or by neither. -/
theorem memory_refines_flat (ops : List MemoryOp) :
    let m := Memory.after ops
    let f := FlatMemory.after ops
    (∀ x, m.read8 x = f.cells x) ∧
    (∀ x, (m.read16 x).toNat = (f.cells x).toNat + (f.cells (x + 1)).toNat * 0x100) ∧
    (∀ x, (m.read32 x).toNat = (f.cells x).toNat + (f.cells (x + 1)).toNat * 0x100 +
      (f.cells (x + 2)).toNat * 0x10000 + (f.cells (x + 3)).toNat * 0x1000000) ∧
    (∀ x, m.protectionAt x = f.protection (pageNumber x)) ∧
    m.residentPages = f.touched.card ∧
    (∀ op : MemoryOp, (∃ v, op.run m = .error v) ↔ op.runFlat f = none) := by
  intro m f
  have h : m.Refines f := refines_foldl .empty ops
  refine ⟨h.read8, fun x => ?_, fun x => ?_, h.protectionAt, h.residentPages, fun op => ?_⟩
  · rw [Memory.read16, toNat_word, h.read8, h.read8]
  · rw [Memory.read32, toNat_dword, h.read8, h.read8, h.read8, h.read8]
  · have hagree := agree_run h op
    generalize op.run m = result, op.runFlat f = result' at hagree ⊢
    cases hagree with
    | carriedOut _ => simp
    | refused v => simp

end Ia32
