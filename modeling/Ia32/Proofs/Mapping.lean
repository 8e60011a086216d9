import Ia32.Memory.Lemmas
import Ia32.Pe.Mapping

/-!
# What a mapping does

On a memory without protected pages no store is refused. A mapping then fails only in the
checks of addresses and of the file, and what it stores does not depend on what is there.

* `Exec.Stores`: what a computation checks, gives and stores, with a rule for every primitive
  and one for sequencing.
* `Section.stores_map`, `Binding.stores_bind`: a section and an import.
* `map_run`: **a mapping passes its checks or fails, stores its runs of bytes, and protects
  its pages.**
-/

namespace Ia32

/-- A run of bytes to be stored. -/
structure ByteRun where
  address : UInt32
  bytes : List UInt8

namespace Memory

/-- Stores runs of bytes one after the other, whatever the protections. -/
def storeRuns (m : Memory) (runs : List ByteRun) : Memory :=
  runs.foldl (fun m run => m.storeBytes run.address run.bytes) m

theorem storeRuns_append (m : Memory) (runs runs' : List ByteRun) :
    m.storeRuns (runs ++ runs') = (m.storeRuns runs).storeRuns runs' :=
  List.foldl_append

theorem protectionAt_storeRuns (m : Memory) (runs : List ByteRun) (a : UInt32) :
    (m.storeRuns runs).protectionAt a = m.protectionAt a := by
  induction runs generalizing m with
  | nil => rfl
  | cons run runs ih =>
    refine (ih _).trans ?_
    rw [protectionAt, protections_storeBytes]
    rfl

/-- No page is protected. -/
def Unprotected (m : Memory) : Prop := ∀ a, m.protectionAt a = .readWrite

theorem Unprotected.storeRuns {m : Memory} (h : m.Unprotected) (runs : List ByteRun) :
    (m.storeRuns runs).Unprotected := fun a => (m.protectionAt_storeRuns runs a).trans (h a)

/-- No store is refused. -/
theorem Unprotected.guarded {m : Memory} (h : m.Unprotected) (as : List UInt32)
    (change : Memory → Memory) : m.guarded as change = .ok (change m) :=
  guarded_eq_ok_iff.mpr ⟨m.denial?_eq_none_iff.mpr fun a _ => h a, rfl⟩

end Memory

namespace Exec

variable {ε α β γ : Type}

/-- On a memory without protected pages `x` fails where `check` does; otherwise it gives `a`,
stores `runs`, and changes nothing else. -/
def Stores (x : Exec ε α) (check : Except ε Unit) (a : α) (runs : List ByteRun) : Prop :=
  ∀ cpu : Cpu, cpu.memory.Unprotected →
    (x.run cpu).result = check.map (fun _ => a) ∧
      (check = .ok () → (x.run cpu).cpu = { cpu with memory := cpu.memory.storeRuns runs })

theorem stores_pure (a : α) : Stores (pure a : Exec ε α) (.ok ()) a [] :=
  fun _ _ => ⟨rfl, fun _ => rfl⟩

theorem stores_emit (event : Event) : Stores (emit event : Exec ε Unit) (.ok ()) () [] :=
  fun _ _ => ⟨rfl, fun _ => rfl⟩

/-- A calculation that may fail is a check. -/
theorem stores_liftExcept {e : Except ε α} {a : α} (h : ∀ a', e = .ok a' → a' = a) :
    Stores (liftExcept e) (e.map fun _ => ()) a [] := by
  intro cpu _
  cases e with
  | error e => exact ⟨rfl, fun h => nomatch h⟩
  | ok a' =>
    rw [h a' rfl]
    exact ⟨rfl, fun _ => rfl⟩

/-- A guarded store is not refused. -/
theorem stores_store {refuse : AccessViolation → ε}
    {change : Memory → Except AccessViolation Memory} {run : ByteRun}
    (h : ∀ m : Memory, m.Unprotected → change m = .ok (m.storeBytes run.address run.bytes)) :
    Stores (store refuse change) (.ok ()) () [run] := by
  intro cpu hcpu
  rw [store, attempt_run, h cpu.memory hcpu]
  exact ⟨rfl, fun _ => rfl⟩

variable {x : Exec ε α} {check check' : Except ε Unit} {a : α} {b : β} {runs runs' : List ByteRun}

theorem Stores.bind {f : α → Exec ε β} (hx : Stores x check a runs)
    (hf : Stores (f a) check' b runs') :
    Stores (x >>= f) (check >>= fun _ => check') b (runs ++ runs') := by
  intro cpu hcpu
  obtain ⟨hresult, hleft⟩ := hx cpu hcpu
  rw [bind_run]
  generalize x.run cpu = outcome at hresult hleft ⊢
  obtain ⟨result, cpu', events⟩ := outcome
  cases check with
  | error e =>
    cases hresult
    exact ⟨rfl, fun h => nomatch h⟩
  | ok _ =>
    cases hresult
    obtain rfl : cpu' = _ := hleft rfl
    -- the second part finds the memory as the first one has left it, still without protection
    obtain ⟨hresult', hleft'⟩ := hf { cpu with memory := cpu.memory.storeRuns runs }
      (hcpu.storeRuns runs)
    refine ⟨hresult', fun h => (hleft' h).trans ?_⟩
    rw [Memory.storeRuns_append]

/-- A second part that cannot fail adds no check. -/
theorem Stores.bind_total {f : α → Exec ε β} (hx : Stores x check a runs)
    (hf : Stores (f a) (.ok ()) b runs') : Stores (x >>= f) check b (runs ++ runs') := by
  have h := hx.bind hf
  have hcheck : (check >>= fun _ => Except.ok ()) = check := bind_pure check
  rwa [hcheck] at h

/-- A note and what is given in the end take no check. -/
theorem Stores.noted (hx : Stores x check a runs) (event : Event) (b : β) :
    Stores (do let _ ← x; emit event; return b) check b runs := by
  have h := hx.bind_total (f := fun _ => do emit event; return b)
    ((stores_emit event).bind_total (f := fun _ => pure b) (stores_pure b))
  rwa [List.append_nil, List.append_nil] at h

theorem Stores.mapM {f : γ → Exec ε α} {check : γ → Except ε Unit} {g : γ → α}
    {runs : γ → List ByteRun} (h : ∀ c, Stores (f c) (check c) (g c) (runs c)) (l : List γ) :
    Stores (l.mapM f) (l.forM check) (l.map g) (l.flatMap runs) := by
  induction l with
  | nil => exact stores_pure []
  | cons c l ih =>
    rw [List.mapM_cons]
    have htail := ih.bind_total (f := fun bs => pure (g c :: bs)) (stores_pure _)
    rw [List.append_nil] at htail
    exact (h c).bind htail

/-- The runs stored by a loop that carries a state along. -/
def runsAlong (next : β → γ → β) (runs : β → γ → List ByteRun) : β → List γ → List ByteRun
  | _, [] => []
  | b, c :: l => runs b c ++ runsAlong next runs (next b c) l

theorem Stores.foldlM {f : β → γ → Exec ε β} {check : γ → Except ε Unit} {next : β → γ → β}
    {runs : β → γ → List ByteRun} (h : ∀ b c, Stores (f b c) (check c) (next b c) (runs b c))
    (b : β) (l : List γ) :
    Stores (l.foldlM f b) (l.forM check) (l.foldl next b) (runsAlong next runs b l) := by
  induction l generalizing b with
  | nil => exact stores_pure b
  | cons c l ih => exact (h b c).bind (ih (next b c))

end Exec

namespace Pe

open Exec

theorem rebase_eq_ok_iff {base address : UInt32} {place : Nat} :
    rebase base place = .ok address ↔
      base.toNat + place < UInt32.size ∧ address = base + UInt32.ofNat place := by
  have hsum : UInt32.ofNat (base.toNat + place) = base + UInt32.ofNat place := by
    rw [UInt32.ofNat_add, UInt32.ofNat_toNat]
  rw [rebase, hsum]
  by_cases h : base.toNat + place < UInt32.size
  · rw [if_pos h, Except.ok.injEq, eq_comm]
    exact (and_iff_right h).symm
  · rw [if_neg h]
    exact iff_of_false (fun h' => nomatch h') fun h' => h h'.1

theorem stores_writeBytes (a : UInt32) (bytes : List UInt8) :
    Stores (store LoadError.refused (·.writeBytes a bytes)) (.ok ()) () [⟨a, bytes⟩] :=
  stores_store fun _ h => h.guarded _ _

theorem stores_write8 (a : UInt32) (b : UInt8) :
    Stores (store LoadError.refused (·.write8 a b)) (.ok ()) () [⟨a, [b]⟩] :=
  stores_store fun _ h => h.guarded _ _

theorem stores_write32 (a v : UInt32) : Stores (store LoadError.refused (·.write32 a v)) (.ok ())
    () [⟨a, [byte0 v, byte1 v, byte2 v, byte3 v]⟩] :=
  stores_store fun m h => by rw [Memory.write32, h.guarded, Memory.store32_eq_storeBytes]

/-! ## Sections -/

namespace Section

variable (s : Section) (file : Bytes) (base : UInt32)

/-- The range of addresses that a section takes. -/
def range : PageRange := ⟨base + s.virtualAddress, s.span, s.protection⟩

/-- The bytes of a section, at their place in memory. -/
def run : ByteRun :=
  ⟨base + s.virtualAddress,
    (file.extract s.rawPointer.toNat (s.rawPointer.toNat + s.rawSize.toNat)).toList⟩

/-- What is checked of a section. -/
def check : Except LoadError Unit := do
  (rebase base s.virtualAddress.toNat).map fun _ => ()
  (s.rawData file).map fun _ => ()

theorem stores_map : Stores (s.map file base) (s.check file base) (s.range base)
    [s.run file base] := by
  have haddress (a : UInt32) (h : rebase base s.virtualAddress.toNat = .ok a) :
      a = base + s.virtualAddress := by
    rw [(rebase_eq_ok_iff.mp h).2, UInt32.ofNat_toNat]
  have hbytes (bytes : List UInt8) (h : s.rawData file = .ok bytes) :
      bytes = (s.run file base).bytes := by
    unfold rawData at h
    dsimp only at h
    split at h <;> cases h
    rfl
  have hstore := (stores_writeBytes (base + s.virtualAddress) (s.run file base).bytes).noted
    (.sectionMapped s.label (base + s.virtualAddress) s.span s.protection) (s.range base)
  exact (stores_liftExcept haddress).bind ((stores_liftExcept hbytes).bind_total hstore)

end Section

/-! ## Imports -/

/-- The place of the address slot of an import. -/
def Import.address (i : Import) (base : UInt32) : UInt32 := base + UInt32.ofNat i.slot

namespace Binding

/-- The thunk of a name, and the binding with it. -/
def bound (binding : Binding) (symbol : String) : UInt32 × Binding :=
  match binding.imports.address? symbol with
  | some thunk => (thunk, binding)
  | none => (binding.nextThunk,
      ⟨binding.imports.insert symbol binding.nextThunk, binding.nextThunk + thunkStride⟩)

/-- What is stored for the thunk of a name: a RET instruction if the name is new. -/
def thunkRuns (binding : Binding) (symbol : String) : List ByteRun :=
  match binding.imports.address? symbol with
  | some _ => []
  | none => [⟨binding.nextThunk, [0xc3]⟩]

theorem stores_thunk (binding : Binding) (symbol : String) :
    Stores (binding.thunk symbol) (.ok ()) (binding.bound symbol) (binding.thunkRuns symbol) := by
  unfold thunk bound thunkRuns
  cases binding.imports.address? symbol with
  | some thunk => exact stores_pure _
  | none => exact (stores_write8 binding.nextThunk 0xc3).bind_total (stores_pure _)

/-- The binding after an import. -/
def next (binding : Binding) (i : Import) : Binding := (binding.bound i.symbol).2

/-- A name that is bound already changes nothing. -/
theorem next_of_eq_some {binding : Binding} {i : Import} {thunk : UInt32}
    (h : binding.imports.address? i.symbol = some thunk) : binding.next i = binding := by
  rw [next, bound, h]

/-- A new name is bound to the address of the next thunk. -/
theorem next_of_eq_none {binding : Binding} {i : Import}
    (h : binding.imports.address? i.symbol = none) :
    binding.next i =
      ⟨binding.imports.insert i.symbol binding.nextThunk, binding.nextThunk + thunkStride⟩ := by
  rw [next, bound, h]

/-- What is stored for an import: its thunk, and the slot that points at it. -/
def runs (base : UInt32) (binding : Binding) (i : Import) : List ByteRun :=
  let thunk := (binding.bound i.symbol).1
  binding.thunkRuns i.symbol ++
    [⟨i.address base, [byte0 thunk, byte1 thunk, byte2 thunk, byte3 thunk]⟩]

/-- What is checked of an import. -/
def check (base : UInt32) (i : Import) : Except LoadError Unit :=
  (rebase base i.slot).map fun _ => ()

theorem stores_bind (base : UInt32) (binding : Binding) (i : Import) :
    Stores (binding.bind base i) (check base i) (binding.next i) (binding.runs base i) := by
  have haddress (a : UInt32) (h : rebase base i.slot = .ok a) : a = i.address base :=
    (rebase_eq_ok_iff.mp h).2
  have hslot := (stores_write32 (i.address base) (binding.bound i.symbol).1).noted
    (.importBound i.library i.symbol (binding.bound i.symbol).1 (i.address base)) (binding.next i)
  exact (binding.stores_thunk i.symbol).bind ((stores_liftExcept haddress).bind_total hslot)

end Binding

/-! ## Images -/

namespace Image

variable (image : Image) (header : Header32) (file : Bytes) (thunkBase : UInt32)

/-- What is checked of an image, after its header. -/
def check : Except LoadError Unit := do
  (rebase header.base header.entry.toNat).map fun _ => ()
  image.sections.forM (·.check file header.base)
  image.imports.forM (Binding.check header.base)

/-- The ranges of addresses that the headers and the sections of an image take. -/
def ranges : List PageRange :=
  ⟨header.base, UInt32.ofNat (headerBytes header file).length, .readOnly⟩ ::
    image.sections.map (·.range header.base)

/-- The binding of all imports of an image. -/
def binding : Binding := image.imports.foldl Binding.next { nextThunk := thunkBase }

/-- What is stored for an image. -/
def runs : List ByteRun :=
  ⟨header.base, headerBytes header file⟩ :: (image.sections.map (·.run file header.base) ++
    runsAlong Binding.next (Binding.runs header.base) { nextThunk := thunkBase } image.imports)

/-- The loaded image. -/
def loaded : LoadedImage :=
  ⟨header.base + header.entry, header.base, (image.binding thunkBase).imports⟩

/-- The memory with the pages of an image protected, those of its thunks first. -/
def protect (m : Memory) : Memory :=
  let imports := (image.binding thunkBase).imports
  (PageClaims.ofRanges (image.ranges header file)).apply
    (if imports.isEmpty then m
      else m.protect thunkBase (UInt32.ofNat imports.size * thunkStride) .readExecute)

/-- The part of a mapping that stores. -/
def storing : Exec LoadError (UInt32 × List PageRange × Binding) := do
  let entry ← liftExcept (rebase header.base header.entry.toNat)
  emit (.imageFound header.base entry image.sections.length)
  store .refused (·.writeBytes header.base (headerBytes header file))
  let ranges ← image.sections.mapM (·.map file header.base)
  let binding ← image.imports.foldlM (Binding.bind header.base) { nextThunk := thunkBase }
  return (entry, ranges, binding)

/-- The part of a mapping that protects. -/
def protecting (entry : UInt32) (ranges : List PageRange) (binding : Binding) :
    Exec LoadError LoadedImage := do
  unless binding.imports.isEmpty do
    update fun cpu =>
      { cpu with
        memory := cpu.memory.protect thunkBase (UInt32.ofNat binding.imports.size * thunkStride)
          .readExecute }
  let claims := PageClaims.ofRanges
    (⟨header.base, UInt32.ofNat (headerBytes header file).length, .readOnly⟩ :: ranges)
  emitAll claims.events.toList
  update fun cpu => { cpu with memory := claims.apply cpu.memory }
  emit (.importsBound binding.imports.size)
  return ⟨entry, header.base, binding.imports⟩

theorem map_eq (hheader : image.header = .ok header) : image.map file thunkBase =
    (image.storing header file thunkBase >>= fun (entry, ranges, binding) =>
      protecting header file thunkBase entry ranges binding) := by
  rw [map, hheader]
  simp only [storing, protecting, bind_assoc, pure_bind]
  rfl

theorem stores_storing : Stores (image.storing header file thunkBase) (image.check header file)
    (header.base + header.entry, image.sections.map (·.range header.base),
      image.binding thunkBase) (image.runs header file thunkBase) := by
  have hentry (a : UInt32) (h : rebase header.base header.entry.toNat = .ok a) :
      a = header.base + header.entry := by
    rw [(rebase_eq_ok_iff.mp h).2, UInt32.ofNat_toNat]
  have hsections := Stores.mapM (fun s : Section => s.stores_map file header.base) image.sections
  have himports := Stores.foldlM (Binding.stores_bind header.base) { nextThunk := thunkBase }
    image.imports
  rw [← List.map_eq_flatMap] at hsections
  have hheaders := stores_writeBytes header.base (headerBytes header file)
  have hbound := himports.bind_total (f := fun binding => pure (header.base + header.entry,
    image.sections.map (·.range header.base), binding)) (stores_pure _)
  rw [List.append_nil] at hbound
  -- step by step as a mapping stores: entry point, headers, sections, imports
  exact (stores_liftExcept hentry).bind ((stores_emit _).bind (hheaders.bind
    (hsections.bind hbound)))

/-- Nothing fails once everything is stored. -/
theorem protecting_run (cpu : Cpu) : ∃ events,
    (protecting header file thunkBase (header.base + header.entry)
      (image.sections.map (·.range header.base)) (image.binding thunkBase)).run cpu =
    ⟨.ok (image.loaded header thunkBase),
      { cpu with memory := image.protect header file thunkBase cpu.memory }, events⟩ := by
  cases hempty : (image.binding thunkBase).imports.isEmpty with
  | true =>
    simp only [protecting, protect, hempty, if_true]
    exact ⟨_, rfl⟩
  | false =>
    simp only [protecting, protect, hempty, Bool.false_eq_true, if_false]
    exact ⟨_, rfl⟩

/-- **A mapping passes its checks or fails**, on a memory without protected pages. If it
passes them it stores its runs of bytes, one after the other, and then protects its pages. -/
theorem map_run (hheader : image.header = .ok header) {cpu : Cpu}
    (hcpu : cpu.memory.Unprotected) :
    ((image.map file thunkBase).run cpu).result =
        (image.check header file).map (fun _ => image.loaded header thunkBase) ∧
      (image.check header file = .ok () → ((image.map file thunkBase).run cpu).cpu =
        { cpu with
          memory := image.protect header file thunkBase
            (cpu.memory.storeRuns (image.runs header file thunkBase)) }) := by
  obtain ⟨hresult, hleft⟩ := image.stores_storing header file thunkBase cpu hcpu
  rw [map_eq image header file thunkBase hheader, bind_run]
  generalize (image.storing header file thunkBase).run cpu = outcome at hresult hleft ⊢
  obtain ⟨result, cpu', events⟩ := outcome
  cases hcheck : image.check header file with
  | error e =>
    rw [hcheck] at hresult
    cases hresult
    exact ⟨rfl, fun h => nomatch h⟩
  | ok _ =>
    rw [hcheck] at hresult
    cases hresult
    obtain rfl : cpu' = _ := hleft hcheck
    obtain ⟨events', hrun⟩ := image.protecting_run header file thunkBase
      { cpu with memory := cpu.memory.storeRuns (image.runs header file thunkBase) }
    dsimp only
    rw [hrun]
    exact ⟨rfl, fun _ => rfl⟩

end Image

end Pe

end Ia32
