import Ia32.Event
import Ia32.Pe.Basic

/-!
# Page claims

The headers and the sections of an image each claim the pages they touch with a protection
of their own. Where claims differ the strictest wins, so code never ends up writable.
Pages past the end of the address space are claimed modulo its size.
-/

namespace Ia32.Pe

/-- A run of bytes in memory and the protection it asks for. -/
structure PageRange where
  address : UInt32
  span : UInt32
  protection : Protection
  deriving DecidableEq, Repr

/-- The pages that a range touches, each by its first address. The range may leave the
address space, and so may these. -/
def PageRange.pages (r : PageRange) : List Nat :=
  let first := (pageBase r.address).toNat
  let last := r.address.toNat + r.span.toNat
  if r.span = 0 then []
  else (List.range ((last - first + (pageSize - 1)) / pageSize)).map fun i => first + i * pageSize

/-- The protections that ranges have claimed pages with, modulo the size of the address
space, and the events of contested pages. -/
structure PageClaims where
  pages : Std.ExtTreeMap UInt32 Protection := ∅
  events : Array Event := #[]

namespace PageClaims

/-- The stricter of two protections. -/
def stricter (held claimed : Protection) : Protection :=
  if held.strictness < claimed.strictness then claimed else held

/-- Claims a page. -/
def claim (protection : Protection) (claims : PageClaims) (page : Nat) : PageClaims :=
  let key := UInt32.ofNat page
  match claims.pages[key]? with
  | none => { claims with pages := claims.pages.insert key protection }
  | some held =>
    if held = protection then claims
    else
      let kept := stricter held protection
      { pages := claims.pages.insert key kept
        events := claims.events.push (.pageContested page held protection kept) }

/-- The claims of some ranges, in order. -/
def ofRanges (ranges : List PageRange) : PageClaims :=
  ranges.foldl (fun claims r => r.pages.foldl (claim r.protection) claims) {}

/-- Gives the claimed pages their protections. -/
def apply (claims : PageClaims) (m : Memory) : Memory :=
  claims.pages.toList.foldl (fun m (page, protection) => m.protectPage page protection) m

end PageClaims

end Ia32.Pe
