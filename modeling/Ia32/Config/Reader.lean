import Ia32.Config.Basic
import Ia32.Text.Numeral

/-!
# Reading a configuration

A configuration is strict JSON: an object of settings by name, or an array of settings in
their order. Settings that are left out have their defaults; in an array only the last ones
can be left out. A setting that is unknown or given twice, a number that has a sign, a point
or an exponent or is out of range, and text after the value are refused.

The readers of its parts take characters and give a value with the characters after it;
`Config.parse?` reads the whole.
-/

namespace Ia32

namespace Config

/-- Whether a character may stand between tokens. -/
def isBlank (c : Char) : Bool := c = ' ' || c = '\t' || c = '\n' || c = '\r'

/-- The characters after leading blanks. -/
def skipBlanks (cs : List Char) : List Char := cs.dropWhile isBlank

/-- Reads one given character. -/
def mark? (c : Char) (cs : List Char) : Option (List Char) :=
  match skipBlanks cs with
  | d :: rest => if d = c then some rest else none
  | [] => none

/-- The value of a hexadecimal digit. -/
def hexValue? (c : Char) : Option Nat :=
  if c.isDigit then some (c.toNat - '0'.toNat)
  else if 'a' ≤ c ∧ c ≤ 'f' then some (c.toNat - 'a'.toNat + 10)
  else if 'A' ≤ c ∧ c ≤ 'F' then some (c.toNat - 'A'.toNat + 10)
  else none

/-- The character that four hexadecimal digits name. Halves of a surrogate pair name none:
no setting has a name that needs them. -/
def codeUnit? (a b c d : Char) : Option Char := do
  let high := (← hexValue? a) * 16 + (← hexValue? b)
  let low := (← hexValue? c) * 16 + (← hexValue? d)
  let code := high * 256 + low
  if code.isValidChar then some (Char.ofNat code) else none

/-- The character that a backslash and `c` stand for. -/
def escaped? : Char → Option Char
  | '"' => some '"'
  | '\\' => some '\\'
  | '/' => some '/'
  | 'b' => some '\x08'
  | 'f' => some '\x0c'
  | 'n' => some '\n'
  | 'r' => some '\r'
  | 't' => some '\t'
  | _ => none

/-- Reads the rest of a string, behind its opening quote. -/
def characters? : List Char → Option (List Char × List Char)
  | [] => none
  | '"' :: cs => some ([], cs)
  | '\\' :: 'u' :: a :: b :: c :: d :: cs => do
    let character ← codeUnit? a b c d
    let (text, rest) ← characters? cs
    return (character :: text, rest)
  | '\\' :: c :: cs => do
    let character ← escaped? c
    let (text, rest) ← characters? cs
    return (character :: text, rest)
  | c :: cs =>
    if c < ' ' || c = '\\' then none
    else (characters? cs).map fun (text, rest) => (c :: text, rest)

/-- Reads a string. -/
def string? (cs : List Char) : Option (String × List Char) := do
  let (text, rest) ← characters? (← mark? '"' cs)
  return (String.ofList text, rest)

/-- Reads a number below `bound`. -/
def number? (bound : Nat) (cs : List Char) : Option (Nat × List Char) := do
  let cs := skipBlanks cs
  let digits := cs.takeWhile Char.isDigit
  let n ← decimal? digits
  guard (n < bound ∧ (digits = ['0'] ∨ digits.head? ≠ some '0'))
  return (n, cs.dropWhile Char.isDigit)

/-- Reads the word `null`. -/
def null? (cs : List Char) : Option (List Char) :=
  match skipBlanks cs with
  | 'n' :: 'u' :: 'l' :: 'l' :: rest => some rest
  | _ => none

/-- The policy of a name. -/
def policy? (name : String) : Option FaultPolicy :=
  if name = "best-effort" then some .bestEffort
  else if name = "strict" then some .strict
  else none

/-- Reads a policy: its name, or an object whose only member has that name and no value. -/
def faultPolicy? (cs : List Char) : Option (FaultPolicy × List Char) :=
  match mark? '\x7b' cs with
  | none => do
    let (name, cs) ← string? cs
    return (← policy? name, cs)
  | some cs => do
    let (name, cs) ← string? cs
    let policy ← policy? name
    return (policy, ← mark? '\x7d' (← null? (← mark? ':' cs)))

/-- A setting. -/
inductive Key where
  | instructionBudget
  | stackTop
  | thunkBase
  | faultPolicy
  deriving DecidableEq, Repr

namespace Key

/-- All settings in their order. -/
def all : List Key := [instructionBudget, stackTop, thunkBase, faultPolicy]

/-- The name of a setting. -/
def name : Key → String
  | instructionBudget => "instruction_budget"
  | stackTop => "stack_top"
  | thunkBase => "thunk_base"
  | faultPolicy => "fault_policy"

/-- Reads the value of a setting into a configuration. -/
def read? (config : Config) (cs : List Char) : Key → Option (Config × List Char)
  | instructionBudget => do
    let (n, cs) ← number? UInt64.size cs
    return ({ config with instructionBudget := UInt64.ofNat n }, cs)
  | stackTop => do
    let (n, cs) ← number? UInt32.size cs
    return ({ config with stackTop := UInt32.ofNat n }, cs)
  | thunkBase => do
    let (n, cs) ← number? UInt32.size cs
    return ({ config with thunkBase := UInt32.ofNat n }, cs)
  | faultPolicy => do
    let (policy, cs) ← faultPolicy? cs
    return ({ config with faultPolicy := policy }, cs)

end Key

/-- Reads the members of an object up to its end. Each setting of `unset` may occur once. -/
def members? (unset : List Key) (config : Config) (cs : List Char) :
    Option (Config × List Char) := do
  let (name, cs) ← string? cs
  match _found : unset.find? (·.name = name) with
  | none => none
  | some key =>
    let (config, cs) ← key.read? config (← mark? ':' cs)
    match skipBlanks cs with
    | ',' :: rest => members? (unset.erase key) config rest
    | '\x7d' :: rest => some (config, rest)
    | _ => none
termination_by unset.length
decreasing_by
  rw [List.length_erase_of_mem (List.mem_of_find?_eq_some _found)]
  exact Nat.sub_lt (List.length_pos_of_mem (List.mem_of_find?_eq_some _found)) Nat.one_pos

/-- Reads the elements of an array up to its end, each as the next setting. -/
def elements? : List Key → Config → List Char → Option (Config × List Char)
  | [], _, _ => none
  | key :: keys, config, cs => do
    let (config, cs) ← key.read? config cs
    match skipBlanks cs with
    | ',' :: rest => elements? keys config rest
    | ']' :: rest => some (config, rest)
    | _ => none

/-- Reads a configuration. -/
def value? (cs : List Char) : Option (Config × List Char) :=
  match skipBlanks cs with
  | '\x7b' :: rest => (mark? '\x7d' rest).map (({}, ·)) <|> members? Key.all {} rest
  | '[' :: rest => (mark? ']' rest).map (({}, ·)) <|> elements? Key.all {} rest
  | _ => none

/-- The settings of a text that is a configuration and nothing else. -/
def parse? (text : String) : Option Config := do
  let (config, rest) ← value? text.toList
  guard (skipBlanks rest).isEmpty
  return config

/-- The configuration that a text is. -/
def ofText (text : String) : Except ConfigError Config := ofTextWith parse? text

/-- The configuration in a file with these bytes, if there is such a file. -/
def ofFile (file? : Option (Array UInt8)) : Except ConfigError Config := ofFileWith parse? file?

end Config

end Ia32
