import Ia32.Memory.Basic

/-!
# Laws of sparse memory

What each operation does to the view of a memory.

* `read8_store8`: a stored byte is read back at its address and nowhere else.
* `protectionAt_store8`: stores move no protection.
* `read8_storeBytes`: a run of bytes is read back at its places, counted from its first address
  around the top of the space.
* `read8_protectPage`, `protectionAt_protectPage`: a page's protection changes
  that page's protection and no byte.
* `guarded_eq_ok_iff`, `guarded_eq_error_iff`: a guarded store takes place in full
  or not at all.
* `read32_store32`, `read8_store32_of_le`: a stored dword is read back, and no byte outside
  its four has changed.
* `readBytes_add`: a run of bytes is one run after another.
* `write8_of_writable`, `write32_of_writable`: stores on `Writable` runs of bytes take place.
-/

namespace Ia32

theorem Protection.writable_iff {p : Protection} : p.writable = true ↔ p = .readWrite := by
  cases p <;> decide

theorem toNat_pageBase (a : UInt32) : (pageBase a).toNat = a.toNat - a.toNat % 0x1000 := by
  have h : a % 0x1000 ≤ a := by
    rw [UInt32.le_iff_toNat_le, UInt32.toNat_mod]
    exact Nat.mod_le _ _
  rw [pageBase, UInt32.toNat_sub_of_le _ _ h, UInt32.toNat_mod]
  rfl

/-- An address is the first address of its page and its place on it. -/
theorem eq_of_page {a x : UInt32} (hp : pageBase a = pageBase x)
    (ho : pageOffset a = pageOffset x) : a = x := by
  rw [← UInt32.toNat_inj] at hp ⊢
  rw [toNat_pageBase, toNat_pageBase] at hp
  have ho' : a.toNat % 0x1000 = x.toNat % 0x1000 := congrArg Fin.val ho
  have := Nat.mod_le a.toNat 0x1000
  have := Nat.mod_le x.toNat 0x1000
  omega

/-- An address is at no distance from itself alone. -/
theorem sub_toNat_eq_zero {a x : UInt32} : (x - a).toNat = 0 ↔ x = a := by
  rw [← UInt32.toNat_inj, UInt32.toNat_sub]
  have := a.toNat_lt
  have := x.toNat_lt
  omega

/-- The byte that a run has for `x` is its first one or one of the rest, which is not long enough
to come around to the first address. -/
theorem getD_cons_sub {a x : UInt32} (b c : UInt8) {bytes : List UInt8}
    (hshort : bytes.length < 0x100000000) :
    (b :: bytes)[(x - a).toNat]?.getD c =
      bytes[(x - (a + 1)).toNat]?.getD (if x = a then b else c) := by
  have hx := x.toNat_lt
  have ha := a.toNat_lt
  have hnext : (x - (a + 1)).toNat = ((x - a).toNat + (0x100000000 - 1)) % 0x100000000 := by
    simp only [UInt32.toNat_sub, UInt32.toNat_add, UInt32.reduceToNat]
    omega
  by_cases h : x = a
  · have hzero := sub_toNat_eq_zero.mpr h
    have hlong : bytes[(x - (a + 1)).toNat]? = none := List.getElem?_eq_none (by omega)
    rw [hlong, hzero, if_pos h]
    rfl
  · -- any other address is one place closer to the start of the rest
    have hne := mt sub_toNat_eq_zero.mp h
    have hlt := (x - a).toNat_lt
    obtain ⟨j, hj⟩ : ∃ j, (x - a).toNat = j + 1 := ⟨(x - a).toNat - 1, by omega⟩
    have hj' : (x - (a + 1)).toNat = j := by omega
    rw [hj', hj, if_neg h, List.getElem?_cons_succ]

namespace Memory

variable (m : Memory) (a x : UInt32) (b : UInt8) (p : Protection)

@[simp] theorem read8_empty : ({} : Memory).read8 a = 0 := by
  simp [read8]

@[simp] theorem protectionAt_empty : ({} : Memory).protectionAt a = .readWrite := by
  simp [protectionAt]

/-- **A stored byte is read back at its address and nowhere else.** -/
theorem read8_store8 : (m.store8 a b).read8 x = if x = a then b else m.read8 x := by
  simp only [read8, store8, Std.ExtTreeMap.getElem?_alter, Std.compare_eq_iff_eq]
  -- on the page of the store it is the offset that tells the addresses apart
  by_cases hp : pageBase a = pageBase x
  · rw [if_pos hp]
    by_cases hx : x = a
    · subst hx
      simp
    · have ho : (pageOffset a).val ≠ (pageOffset x).val := fun h =>
        hx (eq_of_page hp (Fin.ext h)).symm
      rw [if_neg hx, hp]
      cases h : m.pages[pageBase x]? with
      | none => simp [Vector.getElem_set_ne, ho, Page.blank]
      | some page => simp [Vector.getElem_set_ne, ho]
  · have hx : x ≠ a := fun h => hp (h ▸ rfl)
    rw [if_neg hp, if_neg hx]

@[simp] theorem read8_store8_self : (m.store8 a b).read8 a = b := by simp [read8_store8]

@[simp] theorem protectionAt_store8 : (m.store8 a b).protectionAt x = m.protectionAt x := rfl

@[simp] theorem protections_store8 : (m.store8 a b).protections = m.protections := rfl

@[simp] theorem protections_storeBytes (bs : List UInt8) :
    (m.storeBytes a bs).protections = m.protections := by
  induction bs generalizing m a with
  | nil => rfl
  | cons b bs ih => rw [storeBytes, ih, protections_store8]

/-- **A run of bytes is read back at its places and nowhere else.** -/
theorem read8_storeBytes {bytes : List UInt8} (hshort : bytes.length ≤ 0x100000000) :
    (m.storeBytes a bytes).read8 x = bytes[(x - a).toNat]?.getD (m.read8 x) := by
  induction bytes generalizing m a with
  | nil => rfl
  | cons b bytes ih =>
    rw [List.length_cons] at hshort
    rw [storeBytes, ih _ _ (by omega), read8_store8, getD_cons_sub b _ (by omega)]

@[simp] theorem read8_protectPage : (m.protectPage a p).read8 x = m.read8 x := rfl

theorem protectionAt_protectPage :
    (m.protectPage a p).protectionAt x = if pageBase x = a then p else m.protectionAt x := by
  simp only [protectionAt, protectPage]
  by_cases hx : a = pageBase x
  · by_cases hp : p = .readWrite <;> simp [hx, hp]
  · by_cases hp : p = .readWrite <;>
      simp [hp, hx, Ne.symm hx, Std.ExtTreeMap.getD_insert, Std.ExtTreeMap.getD_erase]

/-- No address is denied exactly when all pages are writable. -/
theorem denial?_eq_none_iff {as : List UInt32} :
    m.denial? as = none ↔ ∀ a ∈ as, m.protectionAt a = .readWrite := by
  simp [denial?, denialAt?, List.findSome?_eq_none_iff, Protection.writable_iff]

variable {m}

/-- A guarded store takes place in full if its addresses allow it. -/
theorem guarded_eq_ok_iff {as : List UInt32} {change : Memory → Memory} {m' : Memory} :
    m.guarded as change = .ok m' ↔ m.denial? as = none ∧ change m = m' := by
  unfold guarded
  cases m.denial? as <;> simp

theorem guarded_eq_error_iff {as : List UInt32} {change : Memory → Memory} {v : AccessViolation} :
    m.guarded as change = .error v ↔ m.denial? as = some v := by
  unfold guarded
  cases m.denial? as <;> simp

/-! ## Dwords -/

/-- The four addresses of a dword, by their distance from the first. -/
theorem sub_lt_four_iff {a x : UInt32} :
    x - a < 4 ↔ x = a ∨ x = a + 1 ∨ x = a + 2 ∨ x = a + 3 := by
  grind

section Dwords

variable (m) (a v x : UInt32)

/-- A dword is stored as the run of its bytes. -/
theorem store32_eq_storeBytes :
    m.store32 a v = m.storeBytes a [byte0 v, byte1 v, byte2 v, byte3 v] := by
  have h2 : a + 1 + 1 = a + 2 := by rw [UInt32.add_assoc]; rfl
  have h3 : a + 2 + 1 = a + 3 := by rw [UInt32.add_assoc]; rfl
  simp only [storeBytes, store32, h2, h3]

theorem read8_store32 : (m.store32 a v).read8 x =
    if x = a + 3 then byte3 v else if x = a + 2 then byte2 v
    else if x = a + 1 then byte1 v else if x = a then byte0 v else m.read8 x := by
  simp only [store32, read8_store8]

@[simp] theorem read32_store32 : (m.store32 a v).read32 a = v := by
  simp [read32, read8_store32]

@[simp] theorem protectionAt_store32 : (m.store32 a v).protectionAt x = m.protectionAt x := rfl

/-- A dword that is copied is read in full before it is stored. -/
theorem read8_store32_read32 (s : UInt32) : (m.store32 a (m.read32 s)).read8 x =
    if x - a < 4 then m.read8 (s + (x - a)) else m.read8 x := by
  rw [read8_store32]
  simp only [read32, byte0_dword, byte1_dword, byte2_dword, byte3_dword]
  grind

variable {x}

/-- A stored dword leaves the bytes outside its four alone. -/
theorem read8_store32_of_le (h : 4 ≤ x - a) : (m.store32 a v).read8 x = m.read8 x := by
  rw [read8_store32]
  grind

/-- A dword that has no byte in common with a stored one is still there. -/
theorem read32_store32_of_le (h : 4 ≤ x - a) (h' : 4 ≤ a - x) :
    (m.store32 a v).read32 x = m.read32 x := by
  have hbyte : ∀ i < (4 : UInt32), 4 ≤ x + i - a := by grind
  simp only [read32]
  rw [read8_store32_of_le m a v h, read8_store32_of_le m a v (hbyte 1 (by decide)),
    read8_store32_of_le m a v (hbyte 2 (by decide)),
    read8_store32_of_le m a v (hbyte 3 (by decide))]

end Dwords

/-! ## Runs of bytes that are read -/

theorem length_readBytes (m : Memory) (a : UInt32) (n : Nat) : (m.readBytes a n).length = n := by
  rw [readBytes, List.length_map, List.length_range]

/-- A run of bytes is one run after another. -/
theorem readBytes_add (m : Memory) (a : UInt32) (n k : Nat) :
    m.readBytes a (n + k) = m.readBytes a n ++ m.readBytes (a + UInt32.ofNat n) k := by
  have hnext (i : Nat) : a + UInt32.ofNat (n + i) = a + UInt32.ofNat n + UInt32.ofNat i := by
    rw [UInt32.ofNat_add, UInt32.add_assoc]
  unfold readBytes
  rw [List.range_add, List.map_append, List.map_map]
  congr 1
  exact List.map_congr_left fun i _ => congrArg m.read8 (hnext i)

theorem readBytes_one (m : Memory) (a : UInt32) : m.readBytes a 1 = [m.read8 a] :=
  congrArg (fun a => [m.read8 a]) (UInt32.add_zero a)

theorem readBytes_succ (m : Memory) (a : UInt32) (n : Nat) :
    m.readBytes a (n + 1) = m.read8 a :: m.readBytes (a + 1) n := by
  rw [Nat.add_comm, readBytes_add, readBytes_one]
  rfl

theorem forall_mem_readBytes {a : UInt32} {n : Nat} {P : UInt8 → Prop} :
    (∀ b ∈ m.readBytes a n, P b) ↔ ∀ i < n, P (m.read8 (a + UInt32.ofNat i)) := by
  unfold readBytes
  simp only [List.forall_mem_map, List.mem_range]

/-! ## Runs of bytes that may be stored to -/

/-- The `n` bytes from `a` on lie on writable pages. -/
def Writable (m : Memory) (a n : UInt32) : Prop := ∀ x, x - a < n → m.protectionAt x = .readWrite

theorem write8_of_writable {a : UInt32} (h : m.Writable a 1) (b : UInt8) :
    m.write8 a b = .ok (m.store8 a b) := by
  refine guarded_eq_ok_iff.mpr ⟨m.denial?_eq_none_iff.mpr fun x hx => ?_, rfl⟩
  rw [List.mem_singleton] at hx
  exact h x (by simp [hx])

theorem write32_of_writable {a : UInt32} (h : m.Writable a 4) (v : UInt32) :
    m.write32 a v = .ok (m.store32 a v) := by
  refine guarded_eq_ok_iff.mpr ⟨m.denial?_eq_none_iff.mpr fun x hx => ?_, rfl⟩
  exact h x (sub_lt_four_iff.mpr (by simpa using hx))

theorem writable_of_write8 {m m' : Memory} {a : UInt32} {b : UInt8} (h : m.write8 a b = .ok m') :
    m.Writable a 1 := by
  intro x hx
  have hxa : x = a := by grind
  exact (m.denial?_eq_none_iff.mp (guarded_eq_ok_iff.mp h).1) x (by simp [hxa])

theorem writable_of_write32 {m m' : Memory} {a v : UInt32} (h : m.write32 a v = .ok m') :
    m.Writable a 4 := by
  intro x hx
  have hx' := sub_lt_four_iff.mp hx
  exact (m.denial?_eq_none_iff.mp (guarded_eq_ok_iff.mp h).1) x (by simpa using hx')

end Memory

end Ia32
