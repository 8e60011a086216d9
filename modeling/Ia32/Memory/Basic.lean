import Std.Data.ExtTreeMap
import Ia32.Text.Numeral
import Ia32.Word

/-!
# Sparse memory

A 32-bit address space of 4 KiB pages. A page comes into being with the first
byte stored on it; until then it reads as zeros. Every page has a protection, and
only stores are checked against it: a store that meets a page which is not
writable stores nothing and names the address it was refused at.

The view of a memory is `read8` together with `protectionAt` and `residentPages`.
Addresses wrap at the top of the space.
-/

namespace Ia32

/-- What a page allows. Reading and execution are never refused. -/
inductive Protection where
  | readWrite
  | readOnly
  | readExecute
  deriving DecidableEq, Inhabited, Repr

namespace Protection

/-- Whether stores are allowed. -/
def writable : Protection → Bool
  | readWrite => true
  | _ => false

/-- The name used in messages. -/
def label : Protection → String
  | readWrite => "ReadWrite"
  | readOnly => "ReadOnly"
  | readExecute => "ReadExecute"

/-- The order in which protections win on a page that several ranges claim. -/
def strictness : Protection → Nat
  | readWrite => 0
  | readOnly => 1
  | readExecute => 2

end Protection

/-- A refused store: the address, and the protection of its page. -/
structure AccessViolation where
  address : UInt32
  protection : Protection
  deriving DecidableEq, Repr

/-- The text of a refused store. -/
def AccessViolation.message (v : AccessViolation) : String :=
  "Access violation writing " ++ hex32 v.address ++ " (page is " ++ v.protection.label ++ ")"

/-- The number of bytes on a page. -/
def pageSize : Nat := 0x1000

/-- The first address of the page that `a` lies on. -/
def pageBase (a : UInt32) : UInt32 := a - a % 0x1000

/-- The place of `a` on its page. -/
def pageOffset (a : UInt32) : Fin pageSize := ⟨a.toNat % pageSize, Nat.mod_lt _ (by decide)⟩

/-- The bytes of one page. -/
abbrev Page := Vector UInt8 pageSize

/-- A page of zeros. -/
def Page.blank : Page := Vector.replicate pageSize 0

/-- A sparse memory. Pages and protections are keyed by the first address of the
page; a page without an entry is writable. -/
structure Memory where
  pages : Std.ExtTreeMap UInt32 Page := ∅
  protections : Std.ExtTreeMap UInt32 Protection := ∅

namespace Memory

instance : Inhabited Memory := ⟨{}⟩

/-- The number of pages that hold stored bytes. -/
def residentPages (m : Memory) : Nat := m.pages.size

/-- The protection of the page that `a` lies on. -/
def protectionAt (m : Memory) (a : UInt32) : Protection :=
  m.protections.getD (pageBase a) .readWrite

/-- The byte at `a`. -/
def read8 (m : Memory) (a : UInt32) : UInt8 :=
  match m.pages[pageBase a]? with
  | some page => page[pageOffset a]
  | none => 0

/-- The word at `a`. -/
def read16 (m : Memory) (a : UInt32) : UInt16 := word (m.read8 a) (m.read8 (a + 1))

/-- The dword at `a`. -/
def read32 (m : Memory) (a : UInt32) : UInt32 :=
  dword (m.read8 a) (m.read8 (a + 1)) (m.read8 (a + 2)) (m.read8 (a + 3))

/-- The `n` bytes from `a` on. -/
def readBytes (m : Memory) (a : UInt32) (n : Nat) : List UInt8 :=
  (List.range n).map fun i => m.read8 (a + UInt32.ofNat i)

/-- Stores a byte, whatever the protection. -/
def store8 (m : Memory) (a : UInt32) (b : UInt8) : Memory :=
  { m with
    pages := m.pages.alter (pageBase a) fun page? =>
      some ((page?.getD Page.blank).set (pageOffset a) b) }

/-- Stores the four bytes of a dword, whatever the protection. -/
def store32 (m : Memory) (a : UInt32) (v : UInt32) : Memory :=
  (((m.store8 a (byte0 v)).store8 (a + 1) (byte1 v)).store8 (a + 2) (byte2 v)).store8
    (a + 3) (byte3 v)

/-- Stores a run of bytes, whatever the protection. -/
def storeBytes (m : Memory) (a : UInt32) : List UInt8 → Memory
  | [] => m
  | b :: bs => (m.store8 a b).storeBytes (a + 1) bs

/-- The violation that a store at `a` would be. -/
def denialAt? (m : Memory) (a : UInt32) : Option AccessViolation :=
  let protection := m.protectionAt a
  if protection.writable then none else some ⟨a, protection⟩

/-- The violation at the first of some addresses that refuses a store. -/
def denial? (m : Memory) (addresses : List UInt32) : Option AccessViolation :=
  addresses.findSome? m.denialAt?

/-- `change m`, unless one of the addresses refuses a store. -/
def guarded (m : Memory) (addresses : List UInt32) (change : Memory → Memory) :
    Except AccessViolation Memory :=
  match m.denial? addresses with
  | some violation => .error violation
  | none => .ok (change m)

/-- Stores a byte on a writable page. -/
def write8 (m : Memory) (a : UInt32) (b : UInt8) : Except AccessViolation Memory :=
  m.guarded [a] (·.store8 a b)

/-- Stores a dword if each of its bytes lies on a writable page. -/
def write32 (m : Memory) (a : UInt32) (v : UInt32) : Except AccessViolation Memory :=
  m.guarded [a, a + 1, a + 2, a + 3] (·.store32 a v)

/-- The addresses at which a run of `n` bytes from `a` on is checked: one every
page size from `a` on, then the last one. No page of the run is left out. -/
def probes (a : UInt32) (n : Nat) : List UInt32 :=
  (List.range ((n + (pageSize - 1)) / pageSize)).map (fun i => a + UInt32.ofNat (i * pageSize)) ++
    if n = 0 then [] else [a + UInt32.ofNat (n - 1)]

/-- Stores a run of bytes if all its pages are writable. -/
def writeBytes (m : Memory) (a : UInt32) (bytes : List UInt8) : Except AccessViolation Memory :=
  m.guarded (probes a bytes.length) (·.storeBytes a bytes)

/-- Sets the protection of the page that starts at `page`. -/
def protectPage (m : Memory) (page : UInt32) (p : Protection) : Memory :=
  { m with
    protections :=
      if p = .readWrite then m.protections.erase page else m.protections.insert page p }

/-- Sets the protection of `n` pages in a row. -/
def protectPages (m : Memory) (page : UInt32) (p : Protection) : Nat → Memory
  | 0 => m
  | n + 1 => (m.protectPage page p).protectPages (page + 0x1000) p n

/-- The last address of a nonempty range, cut off at the top of the address space. -/
def lastAddress (a size : UInt32) : UInt32 :=
  UInt32.ofNat (min (a.toNat + (size.toNat - 1)) 0xffffffff)

/-- Sets the protection of every page that the `size` bytes from `a` on touch. -/
def protect (m : Memory) (a size : UInt32) (p : Protection) : Memory :=
  if size = 0 then m
  else
    m.protectPages (pageBase a) p
      (((lastAddress a size).toNat / pageSize - a.toNat / pageSize) + 1)

end Memory

end Ia32
