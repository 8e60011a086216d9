import Ia32.Memory.Lemmas
import Mathlib.Data.Finset.Card
import Mathlib.Data.Finset.Image

/-!
# Pages

* `forall_probes_iff`: **the addresses at which a bulk store is checked meet every page of
  it**, for any alignment, length and wrap at the top of the address space.
* `residentPages_store8`: a store brings the page of its address into being, if it is new.
* `mem_pages_storeBytes`, `residentPages_storeBytes`: a run of bytes brings those of its pages into
  being that are new.
* `protectionAt_protect`: a change of protection reaches the pages from the first to the
  last address of its range and no others.
-/

namespace Ia32

/-- The number of the page that `a` lies on, counted from the bottom of the space. -/
def pageNumber (a : UInt32) : Nat := a.toNat / 0x1000

/-- Pages have as many numbers as first addresses. -/
theorem pageBase_eq_iff {a x : UInt32} : pageBase a = pageBase x ↔ pageNumber a = pageNumber x := by
  rw [← UInt32.toNat_inj, toNat_pageBase, toNat_pageBase]
  unfold pageNumber
  omega

/-- Addresses wrap, and so do the numbers of pages. -/
theorem pageNumber_add (a : UInt32) (i : Nat) :
    pageNumber (a + UInt32.ofNat i) = (a.toNat + i) / 0x1000 % 0x100000 := by
  have := a.toNat_lt
  rw [pageNumber, UInt32.toNat_add, UInt32.toNat_ofNat']
  omega

/-- The addresses after `a`, counted from the next one on. -/
theorem add_one_add_ofNat (a : UInt32) (i : Nat) :
    a + 1 + UInt32.ofNat i = a + UInt32.ofNat (i + 1) := by
  rw [UInt32.ofNat_add, UInt32.add_assoc, UInt32.add_comm 1]
  rfl

/-- The pages that the `n` bytes from `a` on lie on, by their first addresses. -/
def pagesOfRun (a : UInt32) (n : Nat) : Finset UInt32 :=
  (Finset.range n).image fun i => pageBase (a + UInt32.ofNat i)

theorem mem_pagesOfRun {a page : UInt32} {n : Nat} :
    page ∈ pagesOfRun a n ↔ ∃ i < n, pageBase (a + UInt32.ofNat i) = page := by
  simp [pagesOfRun]

theorem pagesOfRun_succ (a : UInt32) (n : Nat) :
    pagesOfRun a (n + 1) = insert (pageBase a) (pagesOfRun (a + 1) n) := by
  ext page
  simp only [Finset.mem_insert, mem_pagesOfRun, add_one_add_ofNat]
  constructor
  · rintro ⟨i, hi, rfl⟩
    cases i with
    | zero => exact .inl (by simp)
    | succ i => exact .inr ⟨i, by omega, rfl⟩
  · rintro (rfl | ⟨i, hi, rfl⟩)
    · exact ⟨0, by omega, by simp⟩
    · exact ⟨i + 1, by omega, rfl⟩

/-- A run that is shorter than a page meets no other pages than those of its ends. -/
theorem card_pagesOfRun_le_two (a : UInt32) {n : Nat} (hn : n ≤ 0x1000) :
    (pagesOfRun a n).card ≤ 2 := by
  have hends : pagesOfRun a n ⊆
      {pageBase (a + UInt32.ofNat 0), pageBase (a + UInt32.ofNat (n - 1))} := by
    intro page hpage
    obtain ⟨i, hi, rfl⟩ := mem_pagesOfRun.mp hpage
    rw [Finset.mem_insert, Finset.mem_singleton, pageBase_eq_iff, pageBase_eq_iff]
    rw [pageNumber_add, pageNumber_add, pageNumber_add]
    omega
  exact (Finset.card_le_card hends).trans Finset.card_le_two

namespace Memory

variable {m : Memory}

theorem protectionAt_of_pageNumber {a x : UInt32} (h : pageNumber a = pageNumber x) :
    m.protectionAt a = m.protectionAt x := by
  rw [protectionAt, protectionAt, pageBase_eq_iff.mpr h]

/-! ## Probes -/

theorem mem_probes {a x : UInt32} {n : Nat} : x ∈ probes a n ↔
    (∃ k, k * 0x1000 < n ∧ x = a + UInt32.ofNat (k * 0x1000)) ∨
      (0 < n ∧ x = a + UInt32.ofNat (n - 1)) := by
  unfold probes pageSize
  rw [List.mem_append, List.mem_map]
  constructor
  · rintro (⟨k, hk, rfl⟩ | h)
    · rw [List.mem_range] at hk
      exact .inl ⟨k, by omega, rfl⟩
    · split at h
      · cases h
      · rw [List.mem_singleton] at h
        exact .inr ⟨by omega, h⟩
  · rintro (⟨k, hk, rfl⟩ | ⟨hn, rfl⟩)
    · exact .inl ⟨k, by rw [List.mem_range]; omega, rfl⟩
    · rw [if_neg (by omega)]
      exact .inr (List.mem_singleton_self _)

/-- Every byte of a run lies on the page of a probe. -/
theorem exists_probe (a : UInt32) {n i : Nat} (hi : i < n) :
    ∃ x ∈ probes a n, pageNumber x = pageNumber (a + UInt32.ofNat i) := by
  by_cases hsame : a.toNat % 0x1000 + i % 0x1000 < 0x1000
  · -- the probe at or before the byte is on its page
    refine ⟨a + UInt32.ofNat (i / 0x1000 * 0x1000), mem_probes.mpr (.inl ⟨i / 0x1000, ?_, rfl⟩), ?_⟩
    · omega
    · rw [pageNumber_add, pageNumber_add]
      omega
  · by_cases hlast : (i / 0x1000 + 1) * 0x1000 < n
    · -- the probe after it is
      refine ⟨a + UInt32.ofNat ((i / 0x1000 + 1) * 0x1000),
        mem_probes.mpr (.inl ⟨i / 0x1000 + 1, hlast, rfl⟩), ?_⟩
      rw [pageNumber_add, pageNumber_add]
      omega
    · -- there is no probe after it but the one of the last byte
      refine ⟨a + UInt32.ofNat (n - 1), mem_probes.mpr (.inr ⟨by omega, rfl⟩), ?_⟩
      rw [pageNumber_add, pageNumber_add]
      omega

/-- **The probes of a run meet every page of it.** -/
theorem forall_probes_iff {a : UInt32} {n : Nat} {p : Protection} :
    (∀ x ∈ probes a n, m.protectionAt x = p) ↔
      ∀ i < n, m.protectionAt (a + UInt32.ofNat i) = p := by
  constructor
  · intro h i hi
    obtain ⟨x, hx, hpage⟩ := exists_probe a hi
    rw [← protectionAt_of_pageNumber hpage, h x hx]
  · intro h x hx
    rcases mem_probes.mp hx with ⟨k, hk, rfl⟩ | ⟨hn, rfl⟩
    · exact h _ hk
    · exact h _ (by omega)

/-! ## Resident pages -/

theorem mem_store8 {a page : UInt32} {b : UInt8} :
    page ∈ (m.store8 a b).pages ↔ page = pageBase a ∨ page ∈ m.pages := by
  simp only [store8, Std.ExtTreeMap.mem_alter, Std.compare_eq_iff_eq]
  by_cases h : pageBase a = page
  · simp [h]
  · simp [h, Ne.symm h]

theorem mem_pages_store8 {a x : UInt32} {b : UInt8} :
    pageBase x ∈ (m.store8 a b).pages ↔ pageNumber x = pageNumber a ∨ pageBase x ∈ m.pages := by
  rw [mem_store8, pageBase_eq_iff]

/-- A store brings one page into being, unless it is there already. -/
theorem residentPages_store8 {a : UInt32} {b : UInt8} : (m.store8 a b).residentPages =
    if pageBase a ∈ m.pages then m.residentPages else m.residentPages + 1 := by
  unfold residentPages store8
  by_cases h : pageBase a ∈ m.pages
  · rw [if_pos h, Std.ExtTreeMap.size_alter_eq_self_of_mem h rfl]
  · rw [if_neg h, Std.ExtTreeMap.size_alter_eq_add_one h rfl]

/-- **A run of bytes brings its pages into being.** -/
theorem mem_pages_storeBytes {a page : UInt32} {bytes : List UInt8} :
    page ∈ (m.storeBytes a bytes).pages ↔ page ∈ m.pages ∨ page ∈ pagesOfRun a bytes.length := by
  induction bytes generalizing m a with
  | nil => simp [storeBytes, pagesOfRun]
  | cons b bytes ih =>
    rw [storeBytes, ih, mem_store8, List.length_cons, pagesOfRun_succ, Finset.mem_insert]
    tauto

/-- There are as many more pages as those of the run that are new. -/
theorem residentPages_storeBytes {a : UInt32} {bytes : List UInt8} :
    (m.storeBytes a bytes).residentPages =
      m.residentPages + ((pagesOfRun a bytes.length).filter (· ∉ m.pages)).card := by
  induction bytes generalizing m a with
  | nil => simp [storeBytes, pagesOfRun]
  | cons b bytes ih =>
    -- what is new to the rest of the run is new, but for the page of the first byte
    have hrest : (pagesOfRun (a + 1) bytes.length).filter (· ∉ (m.store8 a b).pages) =
        ((pagesOfRun (a + 1) bytes.length).filter (· ∉ m.pages)).erase (pageBase a) := by
      ext page
      simp only [Finset.mem_filter, Finset.mem_erase, mem_store8]
      tauto
    rw [storeBytes, ih, hrest, residentPages_store8, List.length_cons, pagesOfRun_succ,
      Finset.filter_insert]
    by_cases h : pageBase a ∈ m.pages
    · rw [if_pos h, if_neg (not_not.mpr h), Finset.erase_eq_of_notMem (by simp [h])]
    · have hcard := Finset.card_erase_add_one
        (Finset.mem_insert_self (pageBase a)
          ((pagesOfRun (a + 1) bytes.length).filter (· ∉ m.pages)))
      rw [Finset.erase_insert_eq_erase] at hcard
      rw [if_neg h, if_pos h, ← hcard]
      omega

/-! ## Changes of protection -/

theorem pages_protectPages (page : UInt32) (p : Protection) (n : Nat) :
    (m.protectPages page p n).pages = m.pages := by
  induction n generalizing m page with
  | zero => rfl
  | succ n ih =>
    rw [protectPages, ih]
    rfl

theorem pages_protect (a size : UInt32) (p : Protection) :
    (m.protect a size p).pages = m.pages := by
  unfold protect
  split
  · rfl
  · rw [pages_protectPages]

@[simp] theorem read8_protect (a size x : UInt32) (p : Protection) :
    (m.protect a size p).read8 x = m.read8 x := by
  rw [read8, read8, pages_protect]

@[simp] theorem residentPages_protect (a size : UInt32) (p : Protection) :
    (m.protect a size p).residentPages = m.residentPages := by
  rw [residentPages, residentPages, pages_protect]

/-- A change of `n` pages reaches those `n` pages. -/
theorem protectionAt_protectPages {page x : UInt32} {p : Protection} {n : Nat} :
    (m.protectPages page p n).protectionAt x =
      if ∃ k < n, pageBase x = page + UInt32.ofNat (k * 0x1000) then p else m.protectionAt x := by
  induction n generalizing m page with
  | zero => simp [protectPages]
  | succ n ih =>
    -- page `k` of the rest is page `k + 1` of the whole row
    have hstep (k : Nat) : page + 0x1000 + UInt32.ofNat (k * 0x1000) =
        page + UInt32.ofNat ((k + 1) * 0x1000) := by
      rw [← UInt32.toNat_inj]
      simp only [UInt32.toNat_add, UInt32.toNat_ofNat', UInt32.reduceToNat]
      omega
    have hfirst : page + UInt32.ofNat (0 * 0x1000) = page := by simp
    rw [protectPages, ih, protectionAt_protectPage]
    simp only [hstep]
    by_cases hlater : ∃ k < n, pageBase x = page + UInt32.ofNat ((k + 1) * 0x1000)
    · obtain ⟨k, hk, hx⟩ := hlater
      rw [if_pos ⟨k, hk, hx⟩, if_pos ⟨k + 1, by omega, hx⟩]
    · rw [if_neg hlater]
      by_cases hx : pageBase x = page
      · rw [if_pos hx, if_pos ⟨0, by omega, by rw [hfirst, hx]⟩]
      · -- the page is neither the first one nor one of those after it
        rw [if_neg hx, if_neg]
        rintro ⟨k, hk, hxk⟩
        cases k with
        | zero => exact hx (by rw [hxk, hfirst])
        | succ k => exact hlater ⟨k, by omega, hxk⟩

theorem toNat_lastAddress (a size : UInt32) :
    (lastAddress a size).toNat = min (a.toNat + (size.toNat - 1)) 0xffffffff := by
  rw [lastAddress, UInt32.toNat_ofNat']
  omega

/-- **A change of protection reaches every page that its range touches**, and the range ends
at the top of the address space. -/
theorem protectionAt_protect {a size x : UInt32} {p : Protection} :
    (m.protect a size p).protectionAt x =
      if ∃ i < size.toNat, a.toNat + i < 0x100000000 ∧ pageNumber x = (a.toNat + i) / 0x1000 then p
      else m.protectionAt x := by
  have ha := a.toNat_lt
  have hx := x.toNat_lt
  unfold protect
  split
  · rename_i hsize
    subst hsize
    simp
  · rename_i hsize
    have hpos : size.toNat ≠ 0 := fun h => hsize (by rw [← UInt32.toNat_inj, h]; rfl)
    have hlast := toNat_lastAddress a size
    have hcount (k : Nat) : pageBase x = pageBase a + UInt32.ofNat (k * 0x1000) ↔
        pageNumber x = (pageNumber a + k) % 0x100000 := by
      rw [← UInt32.toNat_inj, UInt32.toNat_add, UInt32.toNat_ofNat', toNat_pageBase,
        toNat_pageBase]
      unfold pageNumber
      omega
    -- the pages in a row and the pages of the range are the same ones
    have hpages : (∃ k < (lastAddress a size).toNat / pageSize - a.toNat / pageSize + 1,
          pageBase x = pageBase a + UInt32.ofNat (k * 0x1000)) ↔
        ∃ i < size.toNat, a.toNat + i < 0x100000000 ∧ pageNumber x = (a.toNat + i) / 0x1000 := by
      simp only [hcount]
      unfold pageNumber pageSize
      constructor
      · rintro ⟨k, hk, hpage⟩
        by_cases hk0 : k = 0
        · exact ⟨0, by omega, by omega, by omega⟩
        · -- every page but the first is met at its first address
          exact ⟨(a.toNat / 0x1000 + k) * 0x1000 - a.toNat, by omega, by omega, by omega⟩
      · rintro ⟨i, hi, htop, hpage⟩
        exact ⟨x.toNat / 0x1000 - a.toNat / 0x1000, by omega, by omega⟩
    rw [protectionAt_protectPages]
    simp only [hpages]

end Memory

end Ia32
