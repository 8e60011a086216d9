import Ia32.Proofs.Mapping
import Ia32.Proofs.SymbolTable

/-!
# The table of thunks

The names of some imports are bound one after the other, each to the next thunk. What holds of
the binding after every import holds by induction of that of all imports (`foldl_next`).

* `address?_foldl_of_eq_some`: a name that is bound stays bound to the same address.
* `size_binding`: the imports of an image are bound to as many names as there are among them.
* `Numbered`: thunks follow one another at a distance of four bytes, around the top of the
  address space.
* `inverse_binding`: **while the thunks do not come around to the first one, the look-ups by name
  and by address are inverse to each other.**
-/

namespace Ia32

namespace Pe

namespace Binding

variable {binding : Binding} {name symbol : String} {names : Finset String} {a : UInt32}

/-! ## Names stay bound -/

/-- A name is bound to its thunk. -/
theorem address?_next (binding : Binding) (i : Import) :
    (binding.next i).imports.address? i.symbol = some (binding.bound i.symbol).1 := by
  cases hbound : binding.imports.address? i.symbol with
  | some thunk => rw [next_of_eq_some hbound, hbound, bound, hbound]
  | none =>
    rw [next_of_eq_none hbound, bound, hbound]
    exact (Imports.address?_insert _ _ _ _).trans (if_pos rfl)

theorem address?_next_of_eq_some {i : Import} (h : binding.imports.address? name = some a) :
    (binding.next i).imports.address? name = some a := by
  cases hbound : binding.imports.address? i.symbol with
  | some thunk => rwa [next_of_eq_some hbound]
  | none =>
    have hne : i.symbol ≠ name := by
      rintro rfl
      rw [hbound] at h
      cases h
    rw [next_of_eq_none hbound]
    exact (Imports.address?_insert _ _ _ _).trans ((if_neg hne).trans h)

/-- A name that is bound stays bound to the same address. -/
theorem address?_foldl_of_eq_some (imports : List Import)
    (h : binding.imports.address? name = some a) :
    (imports.foldl next binding).imports.address? name = some a := by
  induction imports generalizing binding with
  | nil => exact h
  | cons i imports ih => exact ih (address?_next_of_eq_some h)

/-- A new name is bound to the address of the next thunk, and stays so. -/
theorem address?_foldl_of_new {i : Import} (imports : List Import)
    (hnew : binding.imports.address? i.symbol = none) :
    ((i :: imports).foldl next binding).imports.address? i.symbol = some binding.nextThunk := by
  refine address?_foldl_of_eq_some imports ?_
  rw [address?_next, bound, hnew]

/-! ## From one import to all -/

/-- What every import keeps, with its name added to those bound before, all imports keep. -/
theorem foldl_next {P : Binding → Finset String → Prop}
    (hstep : ∀ binding names i, P binding names → P (binding.next i) (insert i.symbol names))
    (imports : List Import) (h : P binding names) :
    P (imports.foldl next binding) (names ∪ (imports.map (·.symbol)).toFinset) := by
  induction imports generalizing binding names with
  | nil => simpa using h
  | cons i imports ih =>
    have hnames : names ∪ ((i :: imports).map (·.symbol)).toFinset =
        insert i.symbol names ∪ (imports.map (·.symbol)).toFinset := by
      rw [List.map_cons, List.toFinset_cons, Finset.union_insert, Finset.insert_union]
    rw [hnames]
    exact ih (hstep _ _ i h)

/-- These names are bound and no others. -/
structure Binds (binding : Binding) (names : Finset String) : Prop where
  isSome_iff : ∀ name, (binding.imports.address? name).isSome ↔ name ∈ names
  size : binding.imports.size = names.card

theorem Binds.mem (h : binding.Binds names) (hbound : binding.imports.address? name = some a) :
    name ∈ names :=
  (h.isSome_iff name).mp (by rw [hbound]; rfl)

theorem Binds.notMem (h : binding.Binds names) (hnew : binding.imports.address? name = none) :
    name ∉ names := by
  rw [← h.isSome_iff, hnew]
  exact Bool.false_ne_true

theorem Binds.next (h : binding.Binds names) (i : Import) :
    (binding.next i).Binds (insert i.symbol names) := by
  -- a name that is bound already is passed over
  cases hbound : binding.imports.address? i.symbol with
  | some thunk =>
    rw [next_of_eq_some hbound, Finset.insert_eq_of_mem (h.mem hbound)]
    exact h
  | none =>
    rw [next_of_eq_none hbound]
    constructor
    · intro name
      rw [Imports.address?_insert, Finset.mem_insert, ← h.isSome_iff]
      by_cases hname : i.symbol = name
      · simp [hname]
      · simp [hname, Ne.symm hname]
    · rw [Imports.size_insert, hbound, Finset.card_insert_of_notMem (h.notMem hbound), h.size]
      exact if_neg Bool.false_ne_true

/-! ## The places of thunks -/

/-- The names are bound to the thunks from `thunkBase` on, and the next one follows them. -/
structure Numbered (binding : Binding) (thunkBase : UInt32) (names : Finset String) : Prop
    extends Binds binding names where
  nextThunk : binding.nextThunk = thunkBase + UInt32.ofNat (4 * names.card)
  exists_place : ∀ name a, binding.imports.address? name = some a →
    ∃ j < names.card, a = thunkBase + UInt32.ofNat (4 * j)

variable {thunkBase : UInt32}

theorem Numbered.next (h : binding.Numbered thunkBase names) (i : Import) :
    (binding.next i).Numbered thunkBase (insert i.symbol names) := by
  have hbinds := h.toBinds.next i
  cases hbound : binding.imports.address? i.symbol with
  | some thunk =>
    rw [next_of_eq_some hbound, Finset.insert_eq_of_mem (h.mem hbound)]
    exact h
  | none =>
    -- a new name gets the place after those that are taken
    have hcard := Finset.card_insert_of_notMem (h.notMem hbound)
    rw [next_of_eq_none hbound] at hbinds ⊢
    refine ⟨hbinds, ?_, ?_⟩
    · rw [hcard, h.nextThunk, Nat.mul_succ, UInt32.ofNat_add, ← UInt32.add_assoc]
      rfl
    · intro name a ha
      rw [Imports.address?_insert] at ha
      rw [hcard]
      split at ha
      · cases ha
        exact ⟨names.card, Nat.lt_succ_self _, h.nextThunk⟩
      · obtain ⟨j, hj, hplace⟩ := h.exists_place name a ha
        exact ⟨j, Nat.lt_succ_of_lt hj, hplace⟩

theorem numbered_foldl (thunkBase : UInt32) (imports : List Import) :
    (imports.foldl next { nextThunk := thunkBase }).Numbered thunkBase
      (imports.map (·.symbol)).toFinset := by
  have hnone (name : String) :
      ({ nextThunk := thunkBase } : Binding).imports.address? name = none :=
    Imports.address?_empty name
  have hempty : ({ nextThunk := thunkBase } : Binding).Numbered thunkBase ∅ := by
    refine ⟨⟨fun name => ?_, rfl⟩, by simp, fun name a ha => ?_⟩
    · rw [hnone]
      exact iff_of_false Bool.false_ne_true (Finset.notMem_empty _)
    · rw [hnone] at ha
      cases ha
  have h := foldl_next (P := fun binding names => binding.Numbered thunkBase names)
    (fun _ _ i h => h.next i) imports hempty
  rwa [Finset.empty_union] at h

/-- Thunks at different places have different addresses until they come around. -/
theorem place_inj {j k : Nat} (hj : j < 0x40000000) (hk : k < 0x40000000)
    (h : thunkBase + UInt32.ofNat (4 * j) = thunkBase + UInt32.ofNat (4 * k)) : j = k := by
  rw [UInt32.add_right_inj, ← UInt32.toNat_inj, UInt32.toNat_ofNat', UInt32.toNat_ofNat'] at h
  omega

/-- The next thunk is at a new address until the thunks come around. -/
theorem Numbered.inverse_next (h : binding.Numbered thunkBase names)
    (hinverse : binding.imports.Inverse) (i : Import)
    (hcard : (insert i.symbol names).card ≤ 0x40000000) :
    (binding.next i).imports.Inverse := by
  cases hbound : binding.imports.address? i.symbol with
  | some thunk => rwa [next_of_eq_some hbound]
  | none =>
    rw [next_of_eq_none hbound]
    rw [Finset.card_insert_of_notMem (h.notMem hbound)] at hcard
    refine hinverse.insert fun name hname => ?_
    -- the next thunk would be one that is taken, at a lower place
    obtain ⟨j, hj, hplace⟩ := h.exists_place name _ ((hinverse name _).mpr hname)
    rw [h.nextThunk] at hplace
    have := place_inj (by omega) (by omega) hplace
    omega

end Binding

namespace Image

variable (image : Image) (thunkBase : UInt32)

/-- The names that an image imports. -/
def names (image : Image) : Finset String := (image.imports.map (·.symbol)).toFinset

/-- **The names that an image imports are bound to consecutive thunks.** -/
theorem numbered_binding : (image.binding thunkBase).Numbered thunkBase image.names :=
  Binding.numbered_foldl thunkBase image.imports

theorem size_binding : (image.binding thunkBase).imports.size = image.names.card :=
  (image.numbered_binding thunkBase).size

theorem card_names_eq_zero_iff : image.names.card = 0 ↔ image.imports = [] := by
  rw [Finset.card_eq_zero, names, List.toFinset_eq_empty_iff, List.map_eq_nil_iff]

theorem isEmpty_binding :
    (image.binding thunkBase).imports.isEmpty = true ↔ image.imports = [] := by
  rw [← image.card_names_eq_zero_iff, ← image.size_binding thunkBase, Imports.isEmpty,
    Std.ExtTreeMap.isEmpty_eq_size_beq_zero, beq_iff_eq, Imports.size]

theorem card_names_le : image.names.card ≤ image.imports.length := by
  simpa [names] using (image.imports.map (·.symbol)).toFinset_card_le

variable {image}

/-- A lone name is bound to the first thunk. -/
theorem eq_of_card_names_eq_one (hcard : image.names.card = 1) {name : String} {a : UInt32}
    (h : (image.binding thunkBase).imports.address? name = some a) : a = thunkBase := by
  obtain ⟨j, hj, rfl⟩ := (image.numbered_binding thunkBase).exists_place name a h
  obtain rfl : j = 0 := by omega
  exact UInt32.add_zero thunkBase

/-- The thunk of a name has as many thunks before it as there are names before its first import. -/
theorem address?_binding_of_split {before after : List Import} {i : Import}
    (hsplit : image.imports = before ++ i :: after) (hnew : i.symbol ∉ before.map (·.symbol)) :
    (image.binding thunkBase).imports.address? i.symbol =
      some (thunkBase + UInt32.ofNat (4 * (before.map (·.symbol)).toFinset.card)) := by
  have hbefore := Binding.numbered_foldl thunkBase before
  have hnone : (before.foldl Binding.next { nextThunk := thunkBase }).imports.address? i.symbol =
      none := by
    rw [← Option.not_isSome_iff_eq_none, hbefore.isSome_iff, List.mem_toFinset]
    exact hnew
  -- the imports before have bound their names, and the next thunk is the one at their number
  rw [binding, hsplit, List.foldl_append, Binding.address?_foldl_of_new after hnone,
    hbefore.nextThunk]

/-- **While the thunks do not come around to the first one, the look-ups by name and by address
are inverse to each other.** -/
theorem inverse_binding (hcard : image.names.card ≤ 0x40000000) :
    (image.binding thunkBase).imports.Inverse := by
  -- the bound is needed after every import, and holds there as names only become more
  have hstep (binding : Binding) (names : Finset String) (i : Import)
      (h : binding.Numbered thunkBase names ∧
        (names.card ≤ 0x40000000 → binding.imports.Inverse)) :
      (binding.next i).Numbered thunkBase (insert i.symbol names) ∧
        ((insert i.symbol names).card ≤ 0x40000000 → (binding.next i).imports.Inverse) := by
    obtain ⟨hnumbered, hinverse⟩ := h
    refine ⟨hnumbered.next i, fun hle => hnumbered.inverse_next (hinverse ?_) i hle⟩
    exact Nat.le_trans (Finset.card_le_card (Finset.subset_insert _ _)) hle
  have hstart : ({ nextThunk := thunkBase } : Binding).Numbered thunkBase ∅ ∧
      ((∅ : Finset String).card ≤ 0x40000000 →
        ({ nextThunk := thunkBase } : Binding).imports.Inverse) :=
    ⟨Binding.numbered_foldl thunkBase [], fun _ => Imports.inverse_empty⟩
  have h := Binding.foldl_next hstep image.imports hstart
  rw [Finset.empty_union] at h
  exact h.2 hcard

end Image

end Pe

end Ia32
