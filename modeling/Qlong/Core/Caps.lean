import Mathlib.Algebra.Group.Nat.Defs
import Mathlib.Data.List.Basic

/-!
# Capability tags

`packages/core/src/caps.ts`: the one matcher of the executor's gate and of the directory. A
required tag without a version is met by any version of the same class and value; with one, the
segments that were written are compared, as numbers where both sides are digits.
-/

namespace Qlong
namespace Caps

/-- `KNOWN_CAP_CLASSES`. -/
def knownCapClasses : List String := ["env", "tool", "hw", "net", "ext"]

structure ParsedTag where
  cls : String
  value : String
  /-- `none` without a version, else the segments. -/
  version : Option (List String)
deriving DecidableEq, Repr

/-- The text before the first `c`, and what follows it. -/
def cutAt (c : Char) (cs : List Char) : Option (List Char × List Char) :=
  match cs.dropWhile (· ≠ c) with
  | [] => none
  | _ :: rest => some (cs.takeWhile (· ≠ c), rest)

/-- `s.split('.')`. -/
def segments : List Char → List (List Char)
  | [] => [[]]
  | c :: cs =>
    match segments cs with
    | [] => [[c]]
    | part :: rest => if c = '.' then [] :: part :: rest else (c :: part) :: rest

def parseTag (tag : String) : Option ParsedTag :=
  match cutAt ':' tag.toList with
  | none => none
  | some ([], _) => none
  | some (cls, rest) =>
    match cutAt '@' rest with
    | none => some ⟨String.ofList cls, String.ofList rest, none⟩
    | some (value, version) =>
      some ⟨String.ofList cls, String.ofList value, some ((segments version).map String.ofList)⟩

/-- `/^\d+$/`. -/
def isNumeric (s : String) : Bool := !s.toList.isEmpty && s.toList.all fun c => '0' ≤ c && c ≤ '9'

/-- The double nearest to a natural number, ties to even; `none` is `Infinity`. -/
def toDouble (n : Nat) : Option Nat :=
  let shift := Nat.log2 n - 52
  let unit := 2 ^ shift
  let up := decide (unit < 2 * (n % unit)) || (decide (unit = 2 * (n % unit)) && decide (n / unit % 2 = 1))
  let rounded := (n / unit + if up then 1 else 0) * unit
  if Nat.log2 rounded < 1024 then some rounded else none

/-- `Number(s)` of digits. -/
def numberOf (s : String) : Option Nat :=
  toDouble (s.toList.foldl (fun n c => 10 * n + (c.toNat - '0'.toNat)) 0)

/-- One segment: digits by value, anything else by text. -/
def segmentMatch (r o : String) : Bool :=
  if isNumeric r && isNumeric o then decide (numberOf r = numberOf o) else decide (r = o)

def versionMatch (req own : List String) : Bool :=
  decide (req.length ≤ own.length) && (req.zip own).all fun p => segmentMatch p.1 p.2

/-- One owned tag meets the parsed requirement. -/
def meets (required : String) (r : ParsedTag) (o : String) : Bool :=
  match parseTag o with
  | none => false
  | some p =>
    decide (p.cls = r.cls) &&
      if r.cls ∈ knownCapClasses then
        decide (p.value = r.value) && (match r.version, p.version with
          | none, _ => true
          | some _, none => false
          | some rv, some pv => versionMatch rv pv)
      else decide (o = required)

def matchOne (required : String) (owned : List String) : Bool :=
  match parseTag required with
  | none => false
  | some r => owned.any (meets required r)

/-- `matchCaps(required, owned).missing`. -/
def missing (required owned : List String) : List String := required.filter fun r => !matchOne r owned

/-- `matchCaps(required, owned).ok`. -/
def matchCaps (required owned : List String) : Bool := (missing required owned).isEmpty

example : matchCaps ["tool:node@20"] ["tool:node@20.11"] = true := by decide

end Caps
end Qlong
