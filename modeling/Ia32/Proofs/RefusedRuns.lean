import Ia32.Proofs.FaultConditions
import Ia32.Proofs.FlatMemory

/-!
# Runs of bytes that are refused

A run of bytes is checked at its probes, one every page size from its first byte on and then its
last byte. The probes meet every page of the run, but they need not meet it at its first byte: a
run that starts in the middle of a page meets the pages that follow in their middle. A dword is
checked at each of its bytes.

* `probes_eq`: the probes in order, the last one cut off at the end of the run.
* `Memory.FirstRefused`: the byte at place `i` of a run is the first one that is refused.
* `FirstRefused.writeBytes`: a refused run names the first probe from that byte on.
* `writeBytes_refuses`: **which byte a refused run names**, and that it names the first one refused
  exactly if that byte is probed.
* `not_forall_writeBytes_first`: a run need not name the first byte that is refused, and the four
  bytes of a dword need not be refused as the dword is.
-/

namespace Ia32.Memory

variable {m : Memory} {a : UInt32} {n i : Nat}

/-! ## Probes in order -/

/-- The place of the first probe from place `i` on, in a run of `n` bytes. -/
def nextProbe (i n : Nat) : Nat := min ((i + 0xfff) / 0x1000 * 0x1000) (n - 1)

/-- **The probes of a run** are its places that are multiples of the page size, from the first one
on, and its last place. -/
theorem probes_eq (a : UInt32) (hn : 0 < n) :
    probes a n = (List.range ((n + 0xfff) / 0x1000 + 1)).map fun t =>
      a + UInt32.ofNat (nextProbe (t * 0x1000) n) := by
  have hwhole : ∀ t < (n + 0xfff) / 0x1000, nextProbe (t * 0x1000) n = t * 0x1000 := by
    intro t ht
    unfold nextProbe
    omega
  have hlast : nextProbe ((n + 0xfff) / 0x1000 * 0x1000) n = n - 1 := by
    unfold nextProbe
    omega
  have hnonempty : n ≠ 0 := by omega
  rw [List.range_succ, List.map_append, List.map_singleton, hlast, probes, if_neg hnonempty]
  congr 1
  refine List.map_congr_left fun t ht => ?_
  have ht' : t < (n + 0xfff) / 0x1000 := List.mem_range.mp ht
  rw [hwhole t ht']
  rfl

/-- The first probe from a byte on is no further than a page size away, and in the run. -/
theorem nextProbe_mem (hi : i < n) :
    i ≤ nextProbe i n ∧ nextProbe i n < n ∧ nextProbe i n < i + 0x1000 := by
  unfold nextProbe
  omega

/-- A byte that is probed is a multiple of the page size away, or the last one. -/
theorem nextProbe_eq_self_iff (hi : i < n) : nextProbe i n = i ↔ i % 0x1000 = 0 ∨ i + 1 = n := by
  unfold nextProbe
  omega

/-- Probes are less than a page size away from a byte, so that addresses tell them apart. -/
theorem add_nextProbe_eq_iff (hi : i < n) :
    a + UInt32.ofNat (nextProbe i n) = a + UInt32.ofNat i ↔ nextProbe i n = i := by
  obtain ⟨hle, -, hnear⟩ := nextProbe_mem hi
  have ha := a.toNat_lt
  rw [← UInt32.toNat_inj, UInt32.toNat_add, UInt32.toNat_add, UInt32.toNat_ofNat',
    UInt32.toNat_ofNat']
  omega

/-! ## The first byte that is refused -/

/-- Of the `n` bytes from `a` on, the one at place `i` is the first that lies on a page which is
not writable. -/
structure FirstRefused (m : Memory) (a : UInt32) (n i : Nat) : Prop where
  lt : i < n
  refused : m.protectionAt (a + UInt32.ofNat i) ≠ .readWrite
  before : ∀ j < i, m.protectionAt (a + UInt32.ofNat j) = .readWrite

/-- The violation of a store that is refused at place `i` of its bytes and names place `k`. -/
def violationAt (m : Memory) (a : UInt32) (i k : Nat) : AccessViolation :=
  ⟨a + UInt32.ofNat k, m.protectionAt (a + UInt32.ofNat i)⟩

theorem refuses_iff {violation : AccessViolation} :
    m.Refuses a n violation ↔ ∃ i, m.FirstRefused a n i ∧ violation = m.violationAt a i i := by
  constructor
  · rintro ⟨i, hi, hname, hrefused, hbefore⟩
    exact ⟨i, ⟨hi, hrefused, hbefore⟩, hname⟩
  · rintro ⟨i, ⟨hi, hrefused, hbefore⟩, hname⟩
    exact ⟨i, hi, hname, hrefused, hbefore⟩

/-- Bytes that are not all writable have a first one that is refused. -/
theorem exists_firstRefused (h : ¬ ∀ i < n, m.protectionAt (a + UInt32.ofNat i) = .readWrite) :
    ∃ i, m.FirstRefused a n i := by
  have hsome : m.denial? (addresses a n) ≠ none := mt denial?_addresses_eq_none_iff.mp h
  obtain ⟨violation, hviolation⟩ := Option.ne_none_iff_exists'.mp hsome
  obtain ⟨i, hfirst, -⟩ := refuses_iff.mp (denial?_addresses_eq_some_iff.mp hviolation)
  exact ⟨i, hfirst⟩

namespace FirstRefused

variable (h : m.FirstRefused a n i)

include h

/-- There is no more than one. -/
theorem unique {j : Nat} (h' : m.FirstRefused a n j) : i = j := by
  rcases Nat.lt_trichotomy i j with hlt | heq | hgt
  · exact absurd (h'.before i hlt) h.refused
  · exact heq
  · exact absurd (h.before j hgt) h'.refused

/-- It is the first byte of the run, or the first one of its page. -/
theorem eq_zero_or_page_start : i = 0 ∨ (a.toNat + i) % 0x1000 = 0 := by
  by_contra hinside
  -- the byte before it would lie on the same page, and is writable
  have hpage : pageNumber (a + UInt32.ofNat (i - 1)) = pageNumber (a + UInt32.ofNat i) := by
    rw [pageNumber_add, pageNumber_add]
    omega
  have hbefore := h.before (i - 1) (by omega)
  rw [protectionAt_of_pageNumber hpage] at hbefore
  exact h.refused hbefore

/-- The first probe from it on lies on its page. -/
theorem pageNumber_nextProbe :
    pageNumber (a + UInt32.ofNat (nextProbe i n)) = pageNumber (a + UInt32.ofNat i) := by
  obtain ⟨hle, -, hnear⟩ := nextProbe_mem h.lt
  rcases h.eq_zero_or_page_start with hzero | hstart
  · have hfirst : nextProbe i n = i := (nextProbe_eq_self_iff h.lt).mpr (.inl (by omega))
    rw [hfirst]
  · rw [pageNumber_add, pageNumber_add]
    omega

/-- The check of a run ends at the first probe from it on. -/
theorem denial?_probes : m.denial? (probes a n) = some (m.violationAt a i (nextProbe i n)) := by
  have hn : 0 < n := Nat.lt_of_le_of_lt (Nat.zero_le i) h.lt
  have hi := h.lt
  have hprotection : m.protectionAt (a + UInt32.ofNat (nextProbe i n)) =
      m.protectionAt (a + UInt32.ofNat i) := protectionAt_of_pageNumber h.pageNumber_nextProbe
  have hplace : nextProbe ((i + 0xfff) / 0x1000 * 0x1000) n = nextProbe i n := by
    unfold nextProbe
    omega
  rw [probes_eq a hn]
  refine denial?_range_eq_some_iff.mpr ⟨(i + 0xfff) / 0x1000, by omega, ?_, ?_, ?_⟩
  · rw [hplace, hprotection]
    rfl
  · rw [hplace, hprotection]
    exact h.refused
  · -- the probes before it are places before it
    intro t ht
    have hearlier : nextProbe (t * 0x1000) n < i := by
      unfold nextProbe
      omega
    exact h.before _ hearlier

/-- **A refused run names the first probe from the first byte on that is refused.** -/
theorem writeBytes {bytes : List UInt8} (hlength : bytes.length = n) :
    m.writeBytes a bytes = .error (m.violationAt a i (nextProbe i n)) := by
  rw [Memory.writeBytes, hlength]
  exact guarded_eq_error_iff.mpr h.denial?_probes

end FirstRefused

/-- A refused dword names its first byte that is refused. -/
theorem FirstRefused.write32 (h : m.FirstRefused a 4 i) (v : UInt32) :
    m.write32 a v = .error (m.violationAt a i i) := by
  rw [Memory.write32, ← addresses_four]
  exact guarded_eq_error_iff.mpr (denial?_addresses_eq_some_iff.mpr (refuses_iff.mpr ⟨i, h, rfl⟩))

/-! ## Runs and dwords -/

/-- A run is stored exactly if all its bytes are writable. -/
theorem writeBytes_eq_ok_iff {m' : Memory} {bytes : List UInt8} :
    m.writeBytes a bytes = .ok m' ↔
      (∀ i < bytes.length, m.protectionAt (a + UInt32.ofNat i) = .readWrite) ∧
        m' = m.storeBytes a bytes := by
  rw [writeBytes, guarded_eq_ok_iff, denial?_eq_none_iff, forall_probes_iff, eq_comm (a := m')]

/-- The four bytes of a dword are stored exactly if the dword is. -/
theorem writeBytes_littleEndian_eq_ok_iff {m' : Memory} {v : UInt32} :
    m.writeBytes a (littleEndian v) = .ok m' ↔ m.write32 a v = .ok m' := by
  rw [writeBytes_eq_ok_iff, storeBytes_littleEndian, write32, guarded_eq_ok_iff, ← addresses_four,
    denial?_addresses_eq_none_iff, eq_comm (a := m')]
  rfl

/-- **Which byte a refused run names.** A run of bytes is stored in full if all of them lie on
writable pages, and not at all otherwise. Then there is a first byte that is refused, say at place
`i`, and

* the violation has the protection of the page of this byte, and names the next place from `i` on
  that is a multiple of the page size or the last one of the run: an address on the same page;
* this is the address of the first byte refused if and only if `i` is such a place itself.

The four bytes of a dword are stored if and only if the dword is, with the same memory after it. If
they are refused, both violations have the protection of the first byte refused. That of the dword
names this byte. That of the run does so too if it is the first or the last of the four, and else
names the last one. -/
theorem writeBytes_refuses (m : Memory) (a : UInt32) :
    (∀ bytes : List UInt8,
      (∀ m', m.writeBytes a bytes = .ok m' ↔
        (∀ i < bytes.length, m.protectionAt (a + UInt32.ofNat i) = .readWrite) ∧
          m' = m.storeBytes a bytes) ∧
      (∀ violation, m.writeBytes a bytes = .error violation ↔
        ∃ i, m.FirstRefused a bytes.length i ∧
          violation = ⟨a + UInt32.ofNat (min ((i + 0xfff) / 0x1000 * 0x1000) (bytes.length - 1)),
            m.protectionAt (a + UInt32.ofNat i)⟩) ∧
      (∀ i violation, m.FirstRefused a bytes.length i →
        m.writeBytes a bytes = .error violation →
          pageNumber violation.address = pageNumber (a + UInt32.ofNat i) ∧
          (violation.address = a + UInt32.ofNat i ↔ i % 0x1000 = 0 ∨ i + 1 = bytes.length))) ∧
    (∀ v : UInt32,
      (∀ m', m.writeBytes a (littleEndian v) = .ok m' ↔ m.write32 a v = .ok m') ∧
      (∀ i, m.FirstRefused a 4 i →
        let protection := m.protectionAt (a + UInt32.ofNat i)
        m.write32 a v = .error ⟨a + UInt32.ofNat i, protection⟩ ∧
        m.writeBytes a (littleEndian v) = .error ⟨if i = 0 then a else a + 3, protection⟩)) := by
  refine ⟨fun bytes => ⟨fun m' => writeBytes_eq_ok_iff, fun violation => ?_, ?_⟩, fun v =>
    ⟨fun m' => writeBytes_littleEndian_eq_ok_iff, ?_⟩⟩
  · constructor
    · intro hrefused
      -- a run that fails has a place that is refused, or else it would have been stored
      have hsome : ¬ ∀ i < bytes.length, m.protectionAt (a + UInt32.ofNat i) = .readWrite := by
        intro hall
        rw [writeBytes_eq_ok_iff.mpr ⟨hall, rfl⟩] at hrefused
        cases hrefused
      obtain ⟨i, hfirst⟩ := exists_firstRefused hsome
      rw [hfirst.writeBytes rfl] at hrefused
      exact ⟨i, hfirst, (Except.error.inj hrefused).symm⟩
    · rintro ⟨i, hfirst, rfl⟩
      exact hfirst.writeBytes rfl
  · intro i violation hfirst hrefused
    rw [hfirst.writeBytes rfl] at hrefused
    obtain rfl := Except.error.inj hrefused
    have hself := (add_nextProbe_eq_iff (a := a) hfirst.lt).trans (nextProbe_eq_self_iff hfirst.lt)
    exact ⟨hfirst.pageNumber_nextProbe, hself⟩
  · intro i hfirst
    have hi := hfirst.lt
    have hplace : a + UInt32.ofNat (nextProbe i 4) = if i = 0 then a else a + 3 := by
      -- a dword has no other probes than its first and its last byte
      obtain rfl | rfl | rfl | rfl : i = 0 ∨ i = 1 ∨ i = 2 ∨ i = 3 := by omega
      · exact UInt32.add_zero a
      · rfl
      · rfl
      · rfl
    refine ⟨hfirst.write32 v, ?_⟩
    rw [hfirst.writeBytes rfl, violationAt, hplace]

/-- A memory whose second page above 0x1000 is read-only. -/
def secondPageProtected : Memory := ({} : Memory).protectPage 0x2000 .readOnly

/-- Two bytes before that page, a run of four and a dword are refused at different addresses. -/
theorem firstRefused_secondPage : secondPageProtected.FirstRefused 0x1ffe 4 2 := by
  have hprotection (x : UInt32) : secondPageProtected.protectionAt x =
      if pageBase x = 0x2000 then .readOnly else .readWrite := by
    rw [secondPageProtected, protectionAt_protectPage, protectionAt_empty]
  refine ⟨by omega, ?_, ?_⟩
  · rw [hprotection]
    decide
  · intro j hj
    rw [hprotection]
    revert j
    decide

theorem writeBytes_refuses_secondPage :
    secondPageProtected.FirstRefused 0x1ffe 4 2 ∧
    secondPageProtected.writeBytes 0x1ffe [0x44, 0x33, 0x22, 0x11] = .error ⟨0x2001, .readOnly⟩ ∧
    secondPageProtected.write32 0x1ffe 0x11223344 = .error ⟨0x2000, .readOnly⟩ := by
  obtain ⟨hruns, hdwords⟩ := writeBytes_refuses secondPageProtected 0x1ffe
  have hfirst := firstRefused_secondPage
  have hprotection : secondPageProtected.protectionAt (0x1ffe + UInt32.ofNat 2) = .readOnly := by
    rw [secondPageProtected, protectionAt_protectPage, protectionAt_empty]
    rfl
  obtain ⟨-, hrefused, -⟩ := hruns [0x44, 0x33, 0x22, 0x11]
  obtain ⟨-, hdword⟩ := hdwords 0x11223344
  obtain ⟨hdword, -⟩ := hdword 2 hfirst
  rw [hprotection] at hdword
  exact ⟨hfirst, (hrefused _).mpr ⟨2, hfirst, by rw [hprotection]; rfl⟩, hdword⟩

/-- **A run need not name the first byte refused**, and a dword that is given as its four bytes
need not be refused with the address that it is refused with itself. -/
theorem not_forall_writeBytes_first :
    (¬ ∀ (m : Memory) (a : UInt32) (bytes : List UInt8) (violation : AccessViolation),
      m.writeBytes a bytes = .error violation → m.Refuses a bytes.length violation) ∧
    (¬ ∀ (m : Memory) (a v : UInt32), m.writeBytes a (littleEndian v) = m.write32 a v) := by
  have hfirst := firstRefused_secondPage
  have hrun : secondPageProtected.writeBytes 0x1ffe (littleEndian 0x11223344) =
      .error (secondPageProtected.violationAt 0x1ffe 2 3) := hfirst.writeBytes rfl
  have hdiffer : secondPageProtected.violationAt 0x1ffe 2 3 ≠
      secondPageProtected.violationAt 0x1ffe 2 2 := by
    intro heq
    have haddress : (0x2001 : UInt32) = 0x2000 := congrArg AccessViolation.address heq
    revert haddress
    decide
  constructor
  · intro hall
    obtain ⟨i, hi, hname⟩ := refuses_iff.mp (hall _ _ _ _ hrun)
    obtain rfl := hfirst.unique hi
    exact hdiffer hname
  · intro hall
    have hdword := hall secondPageProtected 0x1ffe 0x11223344
    rw [hrun, hfirst.write32] at hdword
    exact hdiffer (Except.error.inj hdword)

end Ia32.Memory
