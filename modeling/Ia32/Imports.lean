import Std.Data.ExtTreeMap

/-!
# Import map

The symbols that an image imports and the addresses they are bound to, with a look-up
in both directions. Binding a symbol again takes its former address out of the reverse
look-up.
-/

namespace Ia32

/-- Bound symbols, by name and by address. -/
structure Imports where
  byName : Std.ExtTreeMap String UInt32 := ∅
  byAddress : Std.ExtTreeMap UInt32 String := ∅
  deriving DecidableEq, Inhabited

namespace Imports

instance : EmptyCollection Imports := ⟨{}⟩

/-- Binds `name` to `address`. -/
def insert (imports : Imports) (name : String) (address : UInt32) : Imports :=
  let byAddress :=
    match imports.byName[name]? with
    | some former => imports.byAddress.erase former
    | none => imports.byAddress
  { byName := imports.byName.insert name address, byAddress := byAddress.insert address name }

/-- The address of a symbol. -/
def address? (imports : Imports) (name : String) : Option UInt32 := imports.byName[name]?

/-- The symbol at an address. -/
def name? (imports : Imports) (address : UInt32) : Option String := imports.byAddress[address]?

/-- Whether a symbol is bound. -/
def contains (imports : Imports) (name : String) : Bool := imports.byName.contains name

/-- The number of bound symbols. -/
def size (imports : Imports) : Nat := imports.byName.size

/-- Whether no symbol is bound. -/
def isEmpty (imports : Imports) : Bool := imports.byName.isEmpty

/-- The bound symbols with their addresses, by name. -/
def toList (imports : Imports) : List (String × UInt32) := imports.byName.toList

/-- Binds symbols one after the other. -/
def ofList (entries : List (String × UInt32)) : Imports :=
  entries.foldl (fun imports (name, address) => imports.insert name address) ∅

@[simp]
theorem address?_empty (name : String) : (∅ : Imports).address? name = none :=
  Std.ExtTreeMap.getElem?_empty

@[simp]
theorem name?_empty (address : UInt32) : (∅ : Imports).name? address = none :=
  Std.ExtTreeMap.getElem?_empty

theorem address?_insert (imports : Imports) (n name : String) (address : UInt32) :
    (imports.insert name address).address? n =
      if name = n then some address else imports.address? n := by
  simp [insert, address?, Std.ExtTreeMap.getElem?_insert]

/-- Binding a symbol takes its former address out of the reverse look-up, and then puts the
symbol at the new one. -/
theorem name?_insert (imports : Imports) (name : String) (address a : UInt32) :
    (imports.insert name address).name? a =
      if address = a then some name
      else if imports.address? name = some a then none
      else imports.name? a := by
  unfold insert name? address?
  cases imports.byName[name]? with
  | none => simp [Std.ExtTreeMap.getElem?_insert]
  | some former => simp [Std.ExtTreeMap.getElem?_insert, Std.ExtTreeMap.getElem?_erase]

/-- Only a symbol that is new is one symbol more. -/
theorem size_insert (imports : Imports) (name : String) (address : UInt32) :
    (imports.insert name address).size =
      if (imports.address? name).isSome then imports.size else imports.size + 1 := by
  have hcontains : imports.byName.contains name = (imports.address? name).isSome :=
    Std.ExtTreeMap.contains_eq_isSome_getElem?
  simp only [size, insert, Std.ExtTreeMap.size_insert, ← hcontains]

theorem ofList_nil : ofList [] = ∅ := rfl

theorem ofList_concat (entries : List (String × UInt32)) (name : String) (address : UInt32) :
    ofList (entries ++ [(name, address)]) = (ofList entries).insert name address := by
  simp [ofList]

end Imports

end Ia32
