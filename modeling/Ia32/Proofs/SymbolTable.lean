import Ia32.Imports
import Mathlib.Data.Finset.Dedup
import Mathlib.Data.Finset.Card

/-!
# Symbols that are bound again

Symbols are bound one after the other, and nothing keeps a name from coming again with another
address, or an address from coming again under another name. Every binding leaves the look-up by
address in step with the look-up by name:

* `Sound.insert`: what is found at an address is bound to it.
* `Inverse.insert`: two look-ups that are inverse to each other stay so, unless the address is
  taken from another name.
* `address?_ofList_eq_some_iff`, `size_ofList`: the last entry of a name counts, and every name
  counts once.
* `lookups_ofList`: **the look-up by address is never stale**, whatever is bound in which order.
-/

namespace Ia32.Imports

variable {imports : Imports} {entries : List (String × UInt32)} {name : String} {a : UInt32}

/-- What is found at an address is bound to it. -/
def Sound (imports : Imports) : Prop :=
  ∀ a name, imports.name? a = some name → imports.address? name = some a

/-- The look-ups by name and by address say the same. -/
def Inverse (imports : Imports) : Prop :=
  ∀ name a, imports.address? name = some a ↔ imports.name? a = some name

theorem sound_empty : (∅ : Imports).Sound := by
  intro a name h
  simp at h

theorem inverse_empty : (∅ : Imports).Inverse := by
  intro name a
  simp

/-- A symbol that is bound again leaves no trace at its former address. -/
theorem Sound.insert (h : imports.Sound) (name : String) (address : UInt32) :
    (imports.insert name address).Sound := by
  intro a n hfound
  rw [name?_insert] at hfound
  rw [address?_insert]
  -- the address is the new one, or the former one of the name, or neither
  split at hfound
  · rename_i ha
    obtain rfl : name = n := Option.some.inj hfound
    rw [if_pos rfl, ha]
  · split at hfound
    · cases hfound
    · -- had `n` been the name that is bound now, its entry would have been taken out
      rename_i hformer
      have hbound := h a n hfound
      have hne : name ≠ n := by
        rintro rfl
        exact hformer hbound
      rw [if_neg hne]
      exact hbound

/-- Two look-ups stay inverse to each other if the address is not taken from another name. -/
theorem Inverse.insert (h : imports.Inverse) {address : UInt32}
    (hfree : ∀ other, imports.name? address = some other → other = name) :
    (imports.insert name address).Inverse := by
  have hsound : imports.Sound := fun a n => (h n a).mpr
  intro n a
  refine ⟨fun hbound => ?_, hsound.insert name address a n⟩
  rw [address?_insert] at hbound
  rw [name?_insert]
  split at hbound
  · rename_i hname
    rw [if_pos (Option.some.inj hbound), hname]
  · rename_i hname
    have hfound := (h n a).mp hbound
    -- the symbol at `a` is `n`, so `a` is neither the new address nor the former one
    have hnew : address ≠ a := by
      rintro rfl
      exact hname (hfree n hfound).symm
    have hformer : imports.address? name ≠ some a := by
      intro hname'
      rw [h, hfound] at hname'
      exact hname (Option.some.inj hname').symm
    rw [if_neg hnew, if_neg hformer]
    exact hfound

/-! ## Entries one after the other -/

theorem sound_ofList (entries : List (String × UInt32)) : (ofList entries).Sound := by
  induction entries using List.reverseRecOn with
  | nil => exact sound_empty
  | append_singleton entries entry ih =>
    obtain ⟨name, address⟩ := entry
    rw [ofList_concat]
    exact ih.insert name address

/-- Entries of other names leave the address of a name as it is. -/
theorem address?_foldl_of_notMem (h : name ∉ entries.map Prod.fst) (imports : Imports) :
    (entries.foldl (fun imports (name, address) => imports.insert name address)
      imports).address? name = imports.address? name := by
  induction entries generalizing imports with
  | nil => rfl
  | cons entry entries ih =>
    rw [List.map_cons, List.mem_cons, not_or] at h
    obtain ⟨hhead, htail⟩ := h
    rw [List.foldl_cons, ih htail, address?_insert, if_neg (Ne.symm hhead)]

/-- **The last entry of a name counts.** -/
theorem address?_ofList_eq_some_iff : (ofList entries).address? name = some a ↔
    ∃ before after, entries = before ++ (name, a) :: after ∧ name ∉ after.map Prod.fst := by
  constructor
  · -- by the last entry, which is the one that counts or leaves the name as it is
    induction entries using List.reverseRecOn with
    | nil =>
      intro h
      rw [ofList_nil, address?_empty] at h
      cases h
    | append_singleton entries entry ih =>
      obtain ⟨n, address⟩ := entry
      intro h
      rw [ofList_concat, address?_insert] at h
      split at h
      · rename_i hname
        obtain rfl : address = a := Option.some.inj h
        exact ⟨entries, [], by rw [hname], List.not_mem_nil⟩
      · rename_i hname
        obtain ⟨before, after, rfl, hafter⟩ := ih h
        refine ⟨before, after ++ [(n, address)], by simp, ?_⟩
        simp only [List.map_append, List.map_cons, List.map_nil, List.mem_append,
          List.mem_singleton, not_or]
        exact ⟨hafter, Ne.symm hname⟩
  · rintro ⟨before, after, rfl, hafter⟩
    rw [ofList, List.foldl_append, List.foldl_cons, address?_foldl_of_notMem hafter,
      address?_insert, if_pos rfl]

/-- The names that have an entry are bound. -/
theorem isSome_address?_ofList :
    ((ofList entries).address? name).isSome ↔ name ∈ entries.map Prod.fst := by
  induction entries using List.reverseRecOn with
  | nil =>
    rw [ofList_nil, address?_empty]
    simp
  | append_singleton entries entry ih =>
    obtain ⟨n, address⟩ := entry
    rw [ofList_concat, address?_insert, List.map_append, List.mem_append, ← ih]
    by_cases hname : n = name
    · simp [hname]
    · simp [hname, Ne.symm hname]

/-- **Every name counts once.** -/
theorem size_ofList (entries : List (String × UInt32)) :
    (ofList entries).size = (entries.map Prod.fst).toFinset.card := by
  induction entries using List.reverseRecOn with
  | nil => rfl
  | append_singleton entries entry ih =>
    obtain ⟨name, address⟩ := entry
    have hnames : ((entries ++ [(name, address)]).map Prod.fst).toFinset =
        Insert.insert name (entries.map Prod.fst).toFinset := by
      ext n
      simp
    rw [ofList_concat, size_insert, hnames, ih]
    -- a name that is bound already is counted already
    by_cases hbound : ((ofList entries).address? name).isSome
    · have hmem := List.mem_toFinset.mpr (isSome_address?_ofList.mp hbound)
      rw [if_pos hbound, Finset.insert_eq_of_mem hmem]
    · have hnot : name ∉ (entries.map Prod.fst).toFinset := fun hmem =>
        hbound (isSome_address?_ofList.mpr (List.mem_toFinset.mp hmem))
      rw [if_neg hbound, Finset.card_insert_of_notMem hnot]

/-- The look-ups are inverse to each other if no entry takes an address from another name. -/
theorem inverse_ofList
    (hfree : ∀ before name a after, entries = before ++ (name, a) :: after →
      ∀ other, (ofList before).name? a = some other → other = name) :
    (ofList entries).Inverse := by
  induction entries using List.reverseRecOn with
  | nil => exact inverse_empty
  | append_singleton entries entry ih =>
    obtain ⟨name, address⟩ := entry
    have hbefore : (ofList entries).Inverse := ih fun before n a after hsplit =>
      hfree before n a (after ++ [(name, address)]) (by rw [hsplit]; simp)
    rw [ofList_concat]
    exact hbefore.insert (hfree entries name address [] rfl)

/-- **The look-up by address is never stale.** Symbols are bound one after the other; names and
addresses may come again. Then

* a name that is found at an address is bound to that address;
* a name is bound to the address of its last entry, and to none if it has no entry;
* there are as many symbols as there are names among the entries;
* if no entry takes an address at which another name is found at that time, the look-ups by name
  and by address are inverse to each other. -/
theorem lookups_ofList (entries : List (String × UInt32)) :
    (∀ a name, (ofList entries).name? a = some name →
      (ofList entries).address? name = some a) ∧
    (∀ name a, (ofList entries).address? name = some a ↔
      ∃ before after, entries = before ++ (name, a) :: after ∧ name ∉ after.map Prod.fst) ∧
    (ofList entries).size = (entries.map Prod.fst).toFinset.card ∧
    ((∀ before name a after, entries = before ++ (name, a) :: after →
        ∀ other, (ofList before).name? a = some other → other = name) →
      ∀ name a, (ofList entries).address? name = some a ↔
        (ofList entries).name? a = some name) :=
  ⟨sound_ofList entries, fun _ _ => address?_ofList_eq_some_iff, size_ofList entries,
    inverse_ofList⟩

/-- Symbols of which one moves to a new address, leaves the former one to another symbol, and is
bound to the new one once more. -/
def movedSymbols : List (String × UInt32) :=
  [("ExitProcess", 0x10), ("GetTickCount", 0x14), ("ExitProcess", 0x20), ("Sleep", 0x10),
    ("ExitProcess", 0x20)]

theorem lookups_ofList_movedSymbols :
    (ofList movedSymbols).name? 0x10 = some "Sleep" ∧
      (ofList movedSymbols).address? "ExitProcess" = some 0x20 ∧
      (ofList movedSymbols).name? 0x20 = some "ExitProcess" ∧
      (ofList movedSymbols).size = 3 := by
  obtain ⟨-, haddress, hsize, hinverse⟩ := lookups_ofList movedSymbols
  have hfree : ∀ before name a after, movedSymbols = before ++ (name, a) :: after →
      ∀ other, (ofList before).name? a = some other → other = name := by
    intro before name a after hsplit other hother
    have hbefore : before = movedSymbols.take before.length := by simp [hsplit]
    have hentry : movedSymbols[before.length]? = some (name, a) := by simp [hsplit]
    obtain ⟨i, hi⟩ : ∃ i, before.length = i := ⟨_, rfl⟩
    rw [hi] at hbefore hentry
    have hlt : i < 5 := (List.getElem?_eq_some_iff.mp hentry).1
    rw [hbefore] at hother
    obtain rfl | rfl | rfl | rfl | rfl : i = 0 ∨ i = 1 ∨ i = 2 ∨ i = 3 ∨ i = 4 := by omega
    all_goals cases hentry
    all_goals simp [movedSymbols, ofList, name?_insert, address?_insert] at hother
    -- only the last entry finds its address taken, by its own name
    exact hother.symm
  have hsleep : (ofList movedSymbols).address? "Sleep" = some 0x10 :=
    (haddress _ _).mpr ⟨movedSymbols.take 3, movedSymbols.drop 4, rfl, by decide⟩
  have hexit : (ofList movedSymbols).address? "ExitProcess" = some 0x20 :=
    (haddress _ _).mpr ⟨movedSymbols.take 4, [], rfl, List.not_mem_nil⟩
  exact ⟨(hinverse hfree _ _).mp hsleep, hexit, (hinverse hfree _ _).mp hexit, hsize⟩

end Ia32.Imports
