import Ia32.Proofs.Dispatch

/-!
# The opcode table

The table of an instruction set is filled while the handlers are registered, one place for each
opcode that is still free. It never has to be filled again: it is a scan of all handlers.

* `table_foldl_register`: after some more registrations, an opcode has the place that it had, or
  else that of the first of the new handlers that claims it.
* `ofList_scans`: **the table of a set of handlers is the scan for the first one that claims an
  opcode**, and no registration takes an opcode away from its handler.
-/

namespace Ia32

namespace InstructionSet

theorem handlers_foldl_register (handlers : List Handler) (set : InstructionSet) :
    (handlers.foldl register set).handlers.toList = set.handlers.toList ++ handlers := by
  induction handlers generalizing set with
  | nil => simp
  | cons handler handlers ih =>
    rw [List.foldl_cons, ih, register, Array.toList_push, List.append_assoc, List.singleton_append]

/-- The place that a handler gets is the number of those before it. -/
theorem table_foldl_register (handlers : List Handler) (set : InstructionSet) (opcode : Fin 256) :
    (handlers.foldl register set).table.get opcode = (set.table.get opcode).or
      ((handlers.findIdx? (·.claims (UInt8.ofNat opcode))).map (set.handlers.size + ·)) := by
  induction handlers generalizing set with
  | nil => simp
  | cons handler handlers ih =>
    have hsize : (set.register handler).handlers.size = set.handlers.size + 1 :=
      Array.size_push handler
    rw [List.foldl_cons, ih, table_register, hsize, Option.or_assoc, List.findIdx?_cons]
    cases handler.claims (UInt8.ofNat opcode) with
    | true => simp
    | false =>
      -- the places of the others are counted from the handler on, which has one itself
      have hshift : (set.handlers.size + 1 + ·) = fun place => set.handlers.size + (place + 1) := by
        funext place
        omega
      simp [hshift, Function.comp_def]

theorem wellFormed_foldl_register (handlers : List Handler) {set : InstructionSet}
    (hset : set.WellFormed) : (handlers.foldl register set).WellFormed := by
  induction handlers generalizing set with
  | nil => exact hset
  | cons handler handlers ih => exact ih (wellFormed_register hset handler)

theorem wellFormed_ofList (handlers : List Handler) : (ofList handlers).WellFormed :=
  wellFormed_foldl_register handlers wellFormed_empty

theorem table_ofList (handlers : List Handler) (opcode : Fin 256) :
    (ofList handlers).table.get opcode =
      handlers.findIdx? (·.claims (UInt8.ofNat opcode)) := by
  rw [ofList, table_foldl_register]
  simp [empty, Vector.get]

/-- What has a handler keeps it. -/
theorem handler?_foldl_register_of_some {set : InstructionSet} (hset : set.WellFormed)
    {opcode : UInt8} {handler : Handler} (h : set.handler? opcode = some handler)
    (more : List Handler) : (more.foldl register set).handler? opcode = some handler := by
  rw [handler?_foldl_register more hset, h, Option.some_or]

/-- **The table of a set is the scan of its handlers.** Some handlers are registered one after the
other, whatever opcodes each of them claims. Then

* the set holds them in this order, and the place of an opcode in the table is that of the first
  handler that claims it, so that every place in the table is one of the handlers;
* the handler of an opcode is the one that claims it and has none before it that does;
* an opcode has no handler if none claims it, and only then;
* whatever is registered after them, an opcode that has a handler keeps it. -/
theorem ofList_scans (handlers : List Handler) :
    let set := ofList handlers
    set.handlers.toList = handlers ∧
      (∀ opcode : Fin 256, set.table.get opcode =
        handlers.findIdx? (·.claims (UInt8.ofNat opcode))) ∧
      set.WellFormed ∧
      (∀ opcode handler, set.handler? opcode = some handler ↔
        handler.claims opcode = true ∧ ∃ earlier later, handlers = earlier ++ handler :: later ∧
          ∀ other ∈ earlier, other.claims opcode = false) ∧
      (∀ opcode, set.handler? opcode = none ↔
        ∀ handler ∈ handlers, handler.claims opcode = false) ∧
      ∀ opcode handler, set.handler? opcode = some handler →
        ∀ more : List Handler, (more.foldl register set).handler? opcode = some handler := by
  intro set
  have hordered : set.handlers.toList = handlers := handlers_foldl_register handlers empty
  have hwellFormed : set.WellFormed := wellFormed_ofList handlers
  refine ⟨hordered, table_ofList handlers, hwellFormed, ?_, ?_, ?_⟩
  · intro opcode handler
    rw [handler?_ofList, List.find?_eq_some_iff_append]
    simp only [Bool.not_eq_true']
  · intro opcode
    rw [handler?_ofList, List.find?_eq_none]
    simp only [Bool.not_eq_true]
  · intro opcode handler hhandler more
    exact handler?_foldl_register_of_some hwellFormed hhandler more

end InstructionSet

end Ia32
