import Ia32.Pe.PageClaims
import Ia32.Proofs.Paging

/-!
# The strictest claim on a page

* `mem_pages_iff`: the pages of a range are those that its bytes lie on, modulo the size of the
  address space.
* `sums_ofRanges`: what some ranges claim a page with is the strictest protection of those that
  touch it, by induction on the ranges.
* `Strictest.eq`: their order does not matter.
* `protectionAt_apply`: **claims override the protections of the pages that they are about, and
  of no others.**
-/

namespace Ia32

namespace Pe

/-- A byte of the range lies on the page of `x`. The range may go on at the bottom of the
address space. -/
def PageRange.Touches (r : PageRange) (x : UInt32) : Prop :=
  ∃ i < r.span.toNat, pageNumber (r.address + UInt32.ofNat i) = pageNumber x

/-- The first addresses of pages are told apart by the numbers of the pages. -/
theorem ofNat_eq_pageBase_iff {k : Nat} {x : UInt32} :
    UInt32.ofNat (k * 0x1000) = pageBase x ↔ k % 0x100000 = pageNumber x := by
  have := x.toNat_lt
  rw [← UInt32.toNat_inj, UInt32.toNat_ofNat', toNat_pageBase, pageNumber]
  omega

/-- **The pages of a range are those that its bytes lie on.** -/
theorem PageRange.mem_pages_iff {r : PageRange} {x : UInt32} :
    (∃ page ∈ r.pages, UInt32.ofNat page = pageBase x) ↔ r.Touches x := by
  have haddress := r.address.toNat_lt
  have hfirst : (pageBase r.address).toNat = r.address.toNat / 0x1000 * 0x1000 := by
    rw [toNat_pageBase]
    omega
  have hplace (i : Nat) : UInt32.ofNat (r.address.toNat / 0x1000 * 0x1000 + i * 0x1000) =
      pageBase x ↔ (r.address.toNat / 0x1000 + i) % 0x100000 = pageNumber x := by
    rw [← Nat.add_mul, ofNat_eq_pageBase_iff]
  unfold Touches pages
  simp only [pageNumber_add, hfirst, pageSize]
  -- an empty range has no pages and no bytes
  by_cases hspan : r.span = 0
  · simp [hspan]
  · have hpos : r.span.toNat ≠ 0 := fun h => hspan (by rw [← UInt32.toNat_inj, h]; rfl)
    rw [if_neg hspan]
    simp only [List.mem_map, List.mem_range]
    constructor
    · rintro ⟨-, ⟨i, hi, rfl⟩, hpage⟩
      rw [hplace] at hpage
      by_cases hi0 : i = 0
      · exact ⟨0, by omega, by subst hi0; simpa using hpage⟩
      · -- every page but the first is met at its first address
        refine ⟨(r.address.toNat / 0x1000 + i) * 0x1000 - r.address.toNat, by omega, ?_⟩
        rw [← hpage]
        congr 1
        omega
    · rintro ⟨i, hi, hpage⟩
      refine ⟨_, ⟨(r.address.toNat + i) / 0x1000 - r.address.toNat / 0x1000, by omega, rfl⟩, ?_⟩
      rw [hplace, ← hpage]
      congr 1
      omega

/-- `p` is the strictest protection of the ranges that touch the page of `x`. -/
def Strictest (ranges : List PageRange) (x : UInt32) (p : Protection) : Prop :=
  (∃ r ∈ ranges, r.Touches x ∧ r.protection = p) ∧
    ∀ r ∈ ranges, r.Touches x → r.protection.strictness ≤ p.strictness

/-- No protection is stricter than that of code. -/
theorem Strictest.eq_readExecute {ranges : List PageRange} {x : UInt32} {p : Protection}
    (h : Strictest ranges x p) {r : PageRange} (hmem : r ∈ ranges) (htouches : r.Touches x)
    (hcode : r.protection = .readExecute) : p = .readExecute := by
  have hle := h.2 r hmem htouches
  rw [hcode] at hle
  cases p with
  | readExecute => rfl
  | readOnly | readWrite => exact absurd hle (by decide)

namespace PageClaims

/-- What the page of `x` is claimed with. -/
def claimed? (claims : PageClaims) (x : UInt32) : Option Protection := claims.pages[pageBase x]?

/-- A claim of the page of `x` adds `protection` to those that the strictest is taken of. -/
def join (held? : Option Protection) (protection : Protection) : Option Protection :=
  some (held?.elim protection fun held => stricter held protection)

theorem stricter_self (p : Protection) : stricter p p = p := by simp [stricter]

/-- The stricter of two protections is one of the two. -/
theorem stricter_eq (p q : Protection) : stricter p q = p ∨ stricter p q = q := by
  unfold stricter
  split
  · exact .inr rfl
  · exact .inl rfl

theorem strictness_stricter (p q : Protection) :
    (stricter p q).strictness = max p.strictness q.strictness := by
  unfold stricter
  split <;> omega

theorem join_join (held? : Option Protection) (p : Protection) :
    join (join held? p) p = join held? p := by
  cases held? with
  | none => simp [join, stricter_self]
  | some held => cases held <;> cases p <;> rfl

theorem claimed?_claim (p : Protection) (claims : PageClaims) (page : Nat) (x : UInt32) :
    (claim p claims page).claimed? x =
      if UInt32.ofNat page = pageBase x then join (claims.claimed? x) p
      else claims.claimed? x := by
  unfold claim claimed?
  dsimp only
  -- by what the page has been claimed with before
  split
  · rename_i hnone
    rw [Std.ExtTreeMap.getElem?_insert]
    by_cases hpage : UInt32.ofNat page = pageBase x
    · rw [hpage] at hnone
      simp [hpage, hnone, join]
    · simp [hpage]
  · rename_i held hheld
    by_cases hpage : UInt32.ofNat page = pageBase x
    · rw [hpage] at hheld
      by_cases hsame : held = p
      · simp [hpage, hheld, hsame, join, stricter_self]
      · simp [hpage, hheld, hsame, join]
    · by_cases hsame : held = p
      · simp [hpage, hsame]
      · simp [hpage, hsame, Std.ExtTreeMap.getElem?_insert]

/-- Claiming the same page again with the same protection makes no difference. -/
theorem claimed?_foldl_claim (p : Protection) (pages : List Nat) (claims : PageClaims)
    (x : UInt32) : (pages.foldl (claim p) claims).claimed? x =
      if ∃ page ∈ pages, UInt32.ofNat page = pageBase x then join (claims.claimed? x) p
      else claims.claimed? x := by
  induction pages generalizing claims with
  | nil => simp
  | cons page pages ih =>
    rw [List.foldl_cons, ih, claimed?_claim]
    by_cases hpage : UInt32.ofNat page = pageBase x
    · simp [hpage, join_join]
    · simp [hpage]

/-- What `held?` says of the claims that ranges have on the page of `x`. -/
def Sums (ranges : List PageRange) (x : UInt32) : Option Protection → Prop
  | none => ∀ r ∈ ranges, ¬r.Touches x
  | some p => Strictest ranges x p

section Sums

variable {ranges : List PageRange} {x : UInt32} {held? : Option Protection} {r : PageRange}
  (h : Sums ranges x held?)

include h

theorem Sums.of_not_touches (hr : ¬r.Touches x) : Sums (ranges ++ [r]) x held? := by
  cases held? with
  | none => exact List.forall_mem_append.mpr ⟨h, List.forall_mem_singleton.mpr hr⟩
  | some p =>
    obtain ⟨⟨r₀, hmem, hr₀⟩, hle⟩ := h
    exact ⟨⟨r₀, List.mem_append_left _ hmem, hr₀⟩, List.forall_mem_append.mpr
      ⟨hle, List.forall_mem_singleton.mpr fun htouches => absurd htouches hr⟩⟩

theorem Sums.of_touches (hr : r.Touches x) :
    Sums (ranges ++ [r]) x (join held? r.protection) := by
  have hlast : r ∈ ranges ++ [r] := List.mem_append_right _ (List.mem_singleton_self r)
  cases held? with
  | none =>
    have hle : ∀ r' ∈ ranges, r'.Touches x → r'.protection.strictness ≤ r.protection.strictness :=
      fun r' hmem htouches => absurd htouches (h r' hmem)
    exact ⟨⟨r, hlast, hr, rfl⟩, List.forall_mem_append.mpr
      ⟨hle, List.forall_mem_singleton.mpr fun _ => Nat.le_refl _⟩⟩
  | some held =>
    obtain ⟨⟨r₀, hmem, htouches, rfl⟩, hle⟩ := h
    constructor
    · -- the stricter of two claims is one of the two
      rcases stricter_eq r₀.protection r.protection with hkept | hkept
      · exact ⟨r₀, List.mem_append_left _ hmem, htouches, hkept.symm⟩
      · exact ⟨r, hlast, hr, hkept.symm⟩
    · change ∀ r' ∈ ranges ++ [r], r'.Touches x →
        r'.protection.strictness ≤ (stricter r₀.protection r.protection).strictness
      rw [strictness_stricter]
      exact List.forall_mem_append.mpr
        ⟨fun r' hmem htouches => Nat.le_trans (hle r' hmem htouches) (Nat.le_max_left _ _),
          List.forall_mem_singleton.mpr fun _ => Nat.le_max_right _ _⟩

end Sums

/-- The claims of ranges sum up to those of the ranges before and their own. -/
theorem sums_foldl (ranges done : List PageRange) (claims : PageClaims) {x : UInt32}
    (h : Sums done x (claims.claimed? x)) : Sums (done ++ ranges) x
      ((ranges.foldl (fun claims r => r.pages.foldl (claim r.protection) claims) claims).claimed?
        x) := by
  -- the claims so far sum up the ranges that are done: each range is moved over to those
  induction ranges generalizing done claims with
  | nil => rwa [List.append_nil]
  | cons r ranges ih =>
    have hstep : Sums (done ++ [r]) x ((r.pages.foldl (claim r.protection) claims).claimed? x) := by
      rw [claimed?_foldl_claim]
      by_cases htouches : r.Touches x
      · rw [if_pos (PageRange.mem_pages_iff.mpr htouches)]
        exact h.of_touches htouches
      · rw [if_neg (mt PageRange.mem_pages_iff.mp htouches)]
        exact h.of_not_touches htouches
    rw [List.foldl_cons, List.append_cons]
    exact ih (done ++ [r]) _ hstep

/-- **What ranges claim a page with is the strictest of those that touch it.** -/
theorem sums_ofRanges (ranges : List PageRange) (x : UInt32) :
    Sums ranges x ((ofRanges ranges).claimed? x) := by
  refine sums_foldl ranges [] {} (x := x) ?_
  simp [claimed?, Sums]

/-! ## Claims and protections -/

section Claims

variable {claims : List (UInt32 × Protection)} {x : UInt32}

/-- Claims of other pages leave a page alone. -/
theorem protectionAt_foldl_of_forall_ne (h : ∀ c ∈ claims, c.1 ≠ pageBase x) (m : Memory) :
    (claims.foldl (fun m (page, p) => m.protectPage page p) m).protectionAt x =
      m.protectionAt x := by
  induction claims generalizing m with
  | nil => rfl
  | cons c claims ih =>
    obtain ⟨hfirst, hrest⟩ := List.forall_mem_cons.mp h
    rw [List.foldl_cons, ih hrest, Memory.protectionAt_protectPage, if_neg (Ne.symm hfirst)]

/-- The claims of distinct pages are all made good, whatever their order. -/
theorem protectionAt_foldl_of_mem (hdistinct : claims.Pairwise fun c c' => c.1 ≠ c'.1)
    {p : Protection} (h : (pageBase x, p) ∈ claims) (m : Memory) :
    (claims.foldl (fun m (page, p) => m.protectPage page p) m).protectionAt x = p := by
  induction claims generalizing m with
  | nil => cases h
  | cons c claims ih =>
    obtain ⟨hfirst, hrest⟩ := List.pairwise_cons.mp hdistinct
    rw [List.foldl_cons]
    -- a claim that has been made good stays so, because the later ones are of other pages
    rcases List.mem_cons.mp h with rfl | hmem
    · rw [protectionAt_foldl_of_forall_ne fun c hc => (hfirst c hc).symm,
        Memory.protectionAt_protectPage, if_pos rfl]
    · exact ih hrest hmem _

end Claims

/-- Claims change no byte. -/
theorem read8_apply (claims : PageClaims) (m : Memory) (x : UInt32) :
    (claims.apply m).read8 x = m.read8 x := by
  unfold apply
  induction claims.pages.toList generalizing m with
  | nil => rfl
  | cons c cs ih => exact ih _

/-- **Claims override the protections of the pages that they are about, and of no others.** -/
theorem protectionAt_apply (claims : PageClaims) (m : Memory) (x : UInt32) :
    (claims.apply m).protectionAt x = (claims.claimed? x).getD (m.protectionAt x) := by
  unfold apply claimed?
  cases hclaimed : claims.pages[pageBase x]? with
  | some p =>
    have hdistinct : claims.pages.toList.Pairwise fun c c' => c.1 ≠ c'.1 := by
      simpa using claims.pages.distinct_keys_toList
    have hmem := Std.ExtTreeMap.mem_toList_iff_getElem?_eq_some.mpr hclaimed
    exact protectionAt_foldl_of_mem hdistinct hmem m
  | none =>
    refine protectionAt_foldl_of_forall_ne (fun c hc heq => ?_) m
    have hsome := Std.ExtTreeMap.mem_toList_iff_getElem?_eq_some.mp (show (c.1, c.2) ∈ _ from hc)
    rw [heq, hclaimed] at hsome
    cases hsome

end PageClaims

end Pe

end Ia32
