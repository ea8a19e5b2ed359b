import Qlong.Core.Json
import Qlong.Core.Protocol
import Mathlib.Data.Fin.Basic
import Mathlib.Data.List.TakeWhile

/-!
# Payload references

`packages/node/src/executor/fetcher.ts`: `checkPayloadRef` refuses a reference to a private address unless
the policy lists its host. The URL parser is the platform's: it gives a host, a name or an address, and
`hostname` is the text of that host. `private_barrier` says which references pass the check though they
should not.
-/

namespace Qlong
namespace Executor

abbrev Text := List Char

/-! ## Hosts -/

/-- An IPv4 address, by its four bytes. -/
structure Ipv4 where
  a : Fin 256
  b : Fin 256
  c : Fin 256
  d : Fin 256
deriving DecidableEq

/-- The first of the eight groups, and the rest. -/
structure Ipv6 where
  head : Fin 65536
  tail : List (Fin 65536)
  eight : tail.length = 7
deriving DecidableEq

/-- What a URL's host is; a name has no colon and no bracket. -/
inductive UrlHost where
  | name (text : Text) (plain : ∀ c ∈ text, c ≠ ':' ∧ c ≠ '[' ∧ c ≠ ']')
  | ipv4 (address : Ipv4)
  | ipv6 (address : Ipv6)
deriving DecidableEq

/-- What the parser of the platform answers: scheme and host. -/
structure Url where
  protocol : String
  host : UrlHost

/-! ## Their texts -/

/-- A byte, without leading zeros. -/
def decimalText (n : Fin 256) : Text := Nat.toDigits 10 n

/-- The dotted form the parser prints. -/
def Ipv4.text (x : Ipv4) : Text :=
  decimalText x.a ++ '.' :: (decimalText x.b ++ '.' :: (decimalText x.c ++ '.' :: decimalText x.d))

def hexDigit (n : Nat) : Char := ("0123456789abcdef".toList[n]?).getD '0'

/-- The four hexadecimal digits of a group. -/
def nibbles (n : Fin 65536) : List Nat := [n / 4096, n / 256 % 16, n / 16 % 16, n % 16]

/-- Lower case, without leading zeros. -/
def hexText (n : Fin 65536) : Text :=
  match (nibbles n).dropWhile (· = 0) with
  | [] => ['0']
  | digits => digits.map hexDigit

/-- How long the run of zero groups at the front is. -/
def leadingZeros : List (Fin 65536) → Nat
  | [] => 0
  | n :: rest => if n = 0 then leadingZeros rest + 1 else 0

/-- The first of the longest runs of zeros: where it starts, and its length. -/
def longestRun : List (Fin 65536) → Nat × Nat
  | [] => (0, 0)
  | n :: rest =>
    if (longestRun rest).2 ≤ leadingZeros (n :: rest) then (0, leadingZeros (n :: rest))
    else ((longestRun rest).1 + 1, (longestRun rest).2)

def Ipv6.groups (x : Ipv6) : List (Fin 65536) := x.head :: x.tail

/-- Groups between colons. -/
def joinGroups (groups : List (Fin 65536)) : Text := [':'].intercalate (groups.map hexText)

/-- The serialization of an address, with its longest run of zeros compressed. -/
def Ipv6.text (x : Ipv6) : Text :=
  let (i, n) := longestRun x.groups
  if n < 2 then joinGroups x.groups else joinGroups (x.groups.take i) ++ ':' :: ':' :: joinGroups (x.groups.drop (i + n))

/-- `u.hostname`. -/
def UrlHost.hostname : UrlHost → Text
  | .name text _ => text
  | .ipv4 address => address.text
  | .ipv6 address => '[' :: address.text ++ [']']

/-! ## What node makes of a text -/

/-- `25[0-5]|2[0-4]\d|1\d\d|[1-9]\d|\d`, as a number. -/
def parseByte (t : Text) : Option (Fin 256) :=
  if t.length ≤ 3 && !t.isEmpty && t.all isDecimal && (t.length = 1 || t.head? ≠ some '0') then
    let n := t.foldl (fun n c => 10 * n + (c.toNat - '0'.toNat)) 0
    if h : n < 256 then some ⟨n, h⟩ else none
  else none
where
  isDecimal (c : Char) : Bool := '0' ≤ c && c ≤ '9'

/-- The dotted form, read back. -/
def parseIpv4 (t : Text) : Option Ipv4 :=
  match t.splitOn '.' with
  | [a, b, c, d] =>
    match parseByte a, parseByte b, parseByte c, parseByte d with
    | some a, some b, some c, some d => some ⟨a, b, c, d⟩
    | _, _, _, _ => none
  | _ => none

/-- One to four hexadecimal digits. -/
def isSegment (t : Text) : Bool := !t.isEmpty && decide (t.length ≤ 4) && t.all isHex

/-- How many groups are written on one side of `::`; the last two may be written as an IPv4 address. -/
def sideCount (dotted : Bool) (pieces : List Text) : Option Nat :=
  if pieces = [[]] then some 0
  else if !pieces.isEmpty && pieces.all isSegment then some pieces.length
  else if dotted && pieces.dropLast.all isSegment && (pieces.getLast?.any fun p => (parseIpv4 p).isSome) then
    some (pieces.length + 1)
  else none

/-- The `::` is the `k`-th piece. -/
def isCompressedAt (pieces : List Text) (k : Nat) : Bool :=
  pieces[k]? = some [] &&
    match sideCount false (pieces.take k), sideCount true (pieces.drop (k + 1)) with
    | some m, some n => decide (m + n ≤ 7)
    | _, _ => false

/-- `isIPv6` of a text without a zone. -/
def isIpv6Address (t : Text) : Bool :=
  let pieces := t.splitOn ':'
  sideCount true pieces = some 8 || (List.range pieces.length).any (isCompressedAt pieces)

/-- `[0-9a-zA-Z-.:]`. -/
def isZoneChar (c : Char) : Bool :=
  ('0' ≤ c && c ≤ '9') || ('a' ≤ c && c ≤ 'z') || ('A' ≤ c && c ≤ 'Z') || c == '-' || c == '.' || c == ':'

/-- `isIP(t) === 6`: an address, with a zone or without. -/
def isIpv6 (t : Text) : Bool :=
  isIpv6Address (t.takeWhile (· ≠ '%')) &&
    match t.dropWhile (· ≠ '%') with
    | [] => true
    | _ :: zone => !zone.isEmpty && zone.all isZoneChar

/-! ## The check -/

/-- `host.toLowerCase()`. -/
def lower (t : Text) : Text := t.map Char.toLower

/-- `replace(/^\[|\]$/g, '')`. -/
def stripBrackets (t : Text) : Text :=
  let t := if t.head? = some '[' then t.tail else t
  if t.getLast? = some ']' then t.dropLast else t

/-- The ranges the check takes for private. -/
def isPrivateIpv4 (x : Ipv4) : Bool :=
  x.a = 10 || x.a = 127 || (x.a = 172 && 16 ≤ x.b && x.b ≤ 31) || (x.a = 192 && x.b = 168) || (x.a = 169 && x.b = 254) || x.a = 0

/-- `isPrivateHost(host)`. -/
def isPrivateHost (host : Text) : Bool :=
  let h := stripBrackets (lower host)
  if h = "localhost".toList || ".localhost".toList.isSuffixOf h || ".local".toList.isSuffixOf h then true
  else
    match parseIpv4 h with
    | some x => isPrivateIpv4 x
    | none => isIpv6 h && (h = "::1".toList || h = "::".toList || "fe80".toList.isPrefixOf h || "fc".toList.isPrefixOf h ||
        "fd".toList.isPrefixOf h)

/-- The reference of a payload: where it is to be fetched, and its size. -/
structure PayloadRef where
  ref_uri : Option String
  repo : Option String
  size : Int

/-- What a node's owner allows: schemes, hosts, a size. -/
structure FetchPolicy where
  allowedSchemes : Option (List String)
  allowHosts : Option (List String)
  maxBytes : Option Int

/-- `norm`: the text before the first colon. -/
def norm (t : Text) : Text := t.takeWhile (· ≠ ':')

/-- `u.protocol.replace(':', '')`. -/
def scheme (u : Url) : String := String.ofList (u.protocol.toList.erase ':')

/-- Only https, unless the policy says otherwise. -/
def schemes (policy : FetchPolicy) : List String := policy.allowedSchemes.getD ["https"]

/-- An entry of `allowHosts` has the text of the host, up to the first colon. -/
def isAllowedHost (policy : FetchPolicy) (host : Text) : Bool :=
  (policy.allowHosts.getD []).any fun a => norm a.toList = norm host

/-- `if (ref.ref_uri)`. -/
def refUri (ref : PayloadRef) : Option String := ref.ref_uri.filter fun s => s ≠ ""

/-- An empty repository is none. -/
def refRepo (ref : PayloadRef) : Option String := ref.repo.filter fun s => s ≠ ""

def missingTarget : String := "payload_ref: ref_uri 与 repo 至少其一"

def unsafeRepo : String := "repo 仅允许 https(R10)"

def unparsable : String := "ref_uri 不可解析"

def foreignScheme (policy : FetchPolicy) : String := "scheme 不在白名单(" ++ "/".intercalate (schemes policy) ++ ")"

def privateTarget (host : Text) : String :=
  "目标 " ++ String.ofList host ++ " 属环回/私网,默认禁止(R10;例外须节点策略白名单)"

def illegalSize : String := "size 非法"

def oversized (size max : Int) : String := "size " ++ toString size ++ " 超过上限 " ++ toString max

/-- The checks of a `ref_uri` that is there. -/
def checkUri (url : String → Option Url) (policy : FetchPolicy) (uri : String) : Option String :=
  match url uri with
  | none => some unparsable
  | some u =>
    if (schemes policy).contains (scheme u) then
      let host := lower u.host.hostname
      if !isAllowedHost policy host && isPrivateHost host then some (privateTarget host) else none
    else some (foreignScheme policy)

/-- `checkPayloadRef(ref, policy)`: the reason of a refusal. -/
def checkPayloadRef (url : String → Option Url) (ref : PayloadRef) (policy : FetchPolicy) : Option String :=
  if (refUri ref).isNone && (refRepo ref).isNone then some missingTarget
  else if (refRepo ref).any fun repo => !"https://".isPrefixOf repo then some unsafeRepo
  else
    match (refUri ref).bind (checkUri url policy) with
    | some reason => some reason
    | none =>
      if !Json.isNonnegative ref.size then some illegalSize
      else
        match policy.maxBytes with
        | some max => if max < ref.size then some (oversized ref.size max) else none
        | none => none

/-! ## What a host denotes -/

/-- What a host resolves to without a name server. -/
inductive Target where
  | ipv4 (address : Ipv4)
  | ipv6 (address : Ipv6)
  | name (text : Text)
deriving DecidableEq

/-- A trailing dot does not change what a name denotes. -/
def dropDot (t : Text) : Text := if t.getLast? = some '.' then t.dropLast else t

/-- The IPv4 address in the last two groups of `::ffff:0:0/96`. -/
def Ipv6.mapped (x : Ipv6) : Option Ipv4 :=
  match x.groups with
  | [0, 0, 0, 0, 0, 0xffff, h, l] => some ⟨.ofNat 256 (h / 256), .ofNat 256 (h % 256), .ofNat 256 (l / 256), .ofNat 256 (l % 256)⟩
  | _ => none

/-- A name that is a dotted address is that address, with or without its final dot. -/
def UrlHost.target : UrlHost → Target
  | .name text _ =>
    match parseIpv4 (dropDot (lower text)) with
    | some x => .ipv4 x
    | none => .name (dropDot (lower text))
  | .ipv4 address => .ipv4 address
  | .ipv6 address =>
    match address.mapped with
    | some x => .ipv4 x
    | none => .ipv6 address

/-- Unspecified, loopback, link-local or private. -/
def Ipv4.IsForbidden (x : Ipv4) : Prop :=
  x = ⟨0, 0, 0, 0⟩ ∨ x.a = 127 ∨ (x.a = 169 ∧ x.b = 254) ∨ x.a = 10 ∨ (x.a = 172 ∧ 16 ≤ x.b ∧ x.b ≤ 31) ∨ (x.a = 192 ∧ x.b = 168)

/-- `::`, `::1`, `fe80::/10` or `fc00::/7`. -/
def Ipv6.IsForbidden (x : Ipv6) : Prop :=
  x.groups = [0, 0, 0, 0, 0, 0, 0, 0] ∨ x.groups = [0, 0, 0, 0, 0, 0, 0, 1] ∨ (0xfe80 ≤ x.head.val ∧ x.head.val < 0xfec0) ∨
    (0xfc00 ≤ x.head.val ∧ x.head.val < 0xfe00)

/-- `localhost`, or a name under it. -/
def IsLocalhost (t : Text) : Prop := t = "localhost".toList ∨ ".localhost".toList <:+ t

/-- The ranges the header of the source names. -/
def Target.IsForbidden : Target → Prop
  | .ipv4 x => x.IsForbidden
  | .ipv6 x => x.IsForbidden
  | .name t => IsLocalhost t

/-- The hosts that are not to be reached, and are not taken for private: a name with a trailing dot, an IPv4
    address in IPv6, and the link-local addresses past `fe80::/16`. -/
def UrlHost.Overlooked : UrlHost → Prop
  | .name text plain => (UrlHost.name text plain).target.IsForbidden ∧ (lower text).getLast? = some '.'
  | .ipv4 _ => False
  | .ipv6 x => (∃ y, x.mapped = some y ∧ y.IsForbidden) ∨ (0xfe80 < x.head.val ∧ x.head.val < 0xfec0)

/-! ## The barrier -/

section

variable (url : String → Option Url)

/-- An entry of `allowHosts` denotes the host that it is, written in a URL. -/
def Denotes (entry : String) (host : UrlHost) : Prop :=
  (url ("https://" ++ entry ++ "/")).map (fun u => u.host.target) = some host.target

/-- A host not to be reached is refused unless an entry denotes it, and what an entry admits it denotes. -/
structure Barred (ref : PayloadRef) (policy : FetchPolicy) : Prop where
  refused : ∀ uri u, refUri ref = some uri → url uri = some u → u.host.target.IsForbidden → checkPayloadRef url ref policy = none →
    ∃ a ∈ policy.allowHosts.getD [], Denotes url a u.host
  admitted : ∀ uri u, refUri ref = some uri → url uri = some u → ∀ a ∈ policy.allowHosts.getD [],
    checkPayloadRef url ref { policy with allowHosts := none } ≠ none →
    checkPayloadRef url ref { policy with allowHosts := some [a] } = none → Denotes url a u.host

/-- The other checks let the reference pass. -/
structure Passable (ref : PayloadRef) (policy : FetchPolicy) (u : Url) : Prop where
  repo : (refRepo ref).all (fun repo => "https://".isPrefixOf repo) = true
  scheme : (schemes policy).contains (scheme u) = true
  size : Json.isNonnegative ref.size = true
  max : ∀ max, policy.maxBytes = some max → ref.size ≤ max

/-- No overlooked host without an entry for it, and no entry that is the text of a private host up to the first
    colon only. -/
structure Covered (policy : FetchPolicy) (host : UrlHost) : Prop where
  overlooked : host.Overlooked → ∃ a ∈ policy.allowHosts.getD [], Denotes url a host
  exact : isPrivateHost (lower host.hostname) = true → ∀ a ∈ policy.allowHosts.getD [],
    norm a.toList = norm (lower host.hostname) → Denotes url a host

end

/-! ## Addresses read back -/

section

variable {t : Text} {x : Ipv6} {gs : List (Fin 65536)}

theorem parseByte_decimalText : ∀ n, parseByte (decimalText n) = some n := by decide +kernel

theorem decimalText_chars : ∀ n, ∀ c ∈ decimalText n, c ≠ '.' ∧ c ≠ '[' ∧ c ≠ ']' ∧ c.toLower = c := by
  have hall : ∀ n, ((decimalText n).all fun c => decide (c ≠ '.' ∧ c ≠ '[' ∧ c ≠ ']' ∧ c.toLower = c)) = true := by
    decide +kernel
  intro n c hc
  exact of_decide_eq_true (List.all_eq_true.mp (hall n) c hc)

/-- The dotted form is read back as it was printed. -/
theorem parseIpv4_text (y : Ipv4) : parseIpv4 y.text = some y := by
  have hdot : ∀ n, '.' ∉ decimalText n := fun n hin => (decimalText_chars n '.' hin).1 rfl
  have hsplit : y.text.splitOn '.' = [decimalText y.a, decimalText y.b, decimalText y.c, decimalText y.d] := by
    unfold Ipv4.text
    rw [List.splitOn_append_cons_self_of_not_mem (hdot y.a), List.splitOn_append_cons_self_of_not_mem (hdot y.b),
      List.splitOn_append_cons_self_of_not_mem (hdot y.c), List.splitOn_eq_singleton (hdot y.d)]
  unfold parseIpv4
  rw [hsplit]
  simp only [parseByte_decimalText]

theorem ipv4_chars {y : Ipv4} : ∀ c ∈ y.text, c ≠ '[' ∧ c ≠ ']' ∧ c.toLower = c := by
  intro c hc
  unfold Ipv4.text at hc
  simp only [List.mem_append, List.mem_cons] at hc
  have hdigit : ∀ n, c ∈ decimalText n → c ≠ '[' ∧ c ≠ ']' ∧ c.toLower = c := fun n hin => (decimalText_chars n c hin).2
  have hpoint : c = '.' → c ≠ '[' ∧ c ≠ ']' ∧ c.toLower = c := by
    intro h
    subst h
    decide
  rcases hc with h | h | h | h | h | h | h
  · exact hdigit y.a h
  · exact hpoint h
  · exact hdigit y.b h
  · exact hpoint h
  · exact hdigit y.c h
  · exact hpoint h
  · exact hdigit y.d h

/-- The characters of an IPv6 address. -/
def isAddressChar (c : Char) : Bool := isLowerHex c || c == ':'

theorem hexDigit_hex : ∀ n < 16, isLowerHex (hexDigit n) = true := by decide

theorem nibbles_lt {n : Fin 65536} : ∀ d ∈ nibbles n, d < 16 := by
  intro d hd
  have hn := n.isLt
  simp only [nibbles, List.mem_cons, List.not_mem_nil, or_false] at hd
  omega

/-- A group is printed as a segment, in lower case. -/
theorem hexText_segment (n : Fin 65536) : isSegment (hexText n) = true ∧ ∀ c ∈ hexText n, isLowerHex c = true := by
  have hlen : ((nibbles n).dropWhile (· = 0)).length ≤ 4 := (List.dropWhile_sublist _).length_le
  have hlt : ∀ d ∈ (nibbles n).dropWhile (· = 0), d < 16 := fun d hd => nibbles_lt d ((List.dropWhile_sublist _).subset hd)
  have hlower : ∀ c ∈ hexText n, isLowerHex c = true := by
    intro c hc
    unfold hexText at hc
    split at hc
    · rw [List.mem_singleton.mp hc]
      decide
    · obtain ⟨d, hd, rfl⟩ := List.mem_map.mp hc
      exact hexDigit_hex d (hlt d hd)
  refine ⟨?_, hlower⟩
  have hshape : hexText n ≠ [] ∧ (hexText n).length ≤ 4 := by
    unfold hexText
    split
    · exact ⟨by simp, by simp⟩
    · rename_i hne
      exact ⟨fun h => hne (List.map_eq_nil_iff.mp h), by rw [List.length_map]; exact hlen⟩
  unfold isSegment
  simp only [Bool.and_eq_true, Bool.not_eq_true', List.isEmpty_eq_false_iff, decide_eq_true_eq, List.all_eq_true]
  exact ⟨⟨hshape.1, hshape.2⟩, fun c hc => by simp [isHex, hlower c hc]⟩

theorem colon_not_mem_hexText {n : Fin 65536} : ':' ∉ hexText n := by
  intro h
  exact absurd ((hexText_segment n).2 ':' h) (by decide)

/-- The pieces of one side of `::`. -/
def sidePieces (gs : List (Fin 65536)) : List Text := if gs = [] then [[]] else gs.map hexText

/-- Joined groups are split where they were joined. -/
theorem splitOn_joinGroups : (joinGroups gs).splitOn ':' = sidePieces gs := by
  unfold joinGroups sidePieces
  split
  · rename_i h
    rw [h]
    rfl
  · rename_i h
    refine List.splitOn_intercalate ':' (fun l hl => ?_) (by simpa using h)
    obtain ⟨n, -, rfl⟩ := List.mem_map.mp hl
    exact colon_not_mem_hexText

/-- And counted as they were. -/
theorem sideCount_sidePieces {dotted : Bool} : sideCount dotted (sidePieces gs) = some gs.length := by
  unfold sidePieces
  split
  · rename_i h
    rw [h]
    rfl
  · rename_i h
    have hpieces : gs.map hexText ≠ [[]] := by
      intro heq
      have hin : ([] : Text) ∈ gs.map hexText := by rw [heq]; simp
      obtain ⟨n, -, hn⟩ := List.mem_map.mp hin
      have hsegment := (hexText_segment n).1
      rw [hn] at hsegment
      exact absurd hsegment (by decide)
    have hall : (gs.map hexText).all isSegment = true := by
      rw [List.all_eq_true]
      intro l hl
      obtain ⟨n, -, rfl⟩ := List.mem_map.mp hl
      exact (hexText_segment n).1
    have hempty : (gs.map hexText).isEmpty = false := by simpa using h
    unfold sideCount
    rw [if_neg hpieces, hall, hempty]
    simp

theorem leadingZeros_le : leadingZeros gs ≤ gs.length := by
  induction gs with
  | nil => exact Nat.le_refl _
  | cons n rest ih =>
    unfold leadingZeros
    split
    · exact Nat.succ_le_succ ih
    · exact Nat.zero_le _

/-- The longest run lies within the groups. -/
theorem longestRun_le : (longestRun gs).1 + (longestRun gs).2 ≤ gs.length := by
  induction gs with
  | nil => exact Nat.le_refl _
  | cons n rest ih =>
    unfold longestRun
    split
    · rw [Nat.zero_add]
      exact leadingZeros_le
    · rw [List.length_cons]
      omega

theorem length_groups : x.groups.length = 8 := by
  unfold Ipv6.groups
  rw [List.length_cons, x.eight]

theorem toLower_eq {c : Char} (h : c.toNat < 65 ∨ 90 < c.toNat) : c.toLower = c := by
  unfold Char.toLower
  refine dif_neg fun hupper => ?_
  simp only [Char.toNat, UInt32.le_iff_toNat_le, ge_iff_le] at h hupper
  have hA : 'A'.val.toNat = 65 := rfl
  have hZ : 'Z'.val.toNat = 90 := rfl
  omega

theorem toLower_cases (c : Char) : c.toLower = c ∨ (97 ≤ c.toLower.toNat ∧ c.toLower.toNat ≤ 122) := by
  unfold Char.toLower
  split
  · rename_i h
    right
    simp only [Char.toNat, UInt32.le_iff_toNat_le, ge_iff_le, UInt32.toNat_add] at h ⊢
    have hA : 'A'.val.toNat = 65 := rfl
    have hZ : 'Z'.val.toNat = 90 := rfl
    have hdiff : ('a'.val - 'A'.val).toNat = 32 := rfl
    omega
  · exact .inl rfl

theorem addressChar_plain {c : Char} (hc : isAddressChar c = true) :
    c.toLower = c ∧ c ≠ '[' ∧ c ≠ ']' ∧ c ≠ '%' ∧ c ≠ '.' ∧ c ≠ 'l' := by
  have hne : ∀ d, isAddressChar d = false → c ≠ d := fun d hd h => by rw [h, hd] at hc; exact Bool.noConfusion hc
  refine ⟨?_, hne _ rfl, hne _ rfl, hne _ rfl, hne _ rfl, hne _ rfl⟩
  unfold isAddressChar isLowerHex at hc
  simp only [Bool.or_eq_true, Bool.and_eq_true, decide_eq_true_eq, beq_iff_eq, Char.le_def, UInt32.le_iff_toNat_le] at hc
  rcases hc with (h | h) | h
  · exact toLower_eq (.inl (Nat.lt_of_le_of_lt h.2 (by decide)))
  · exact toLower_eq (.inr (Nat.lt_of_lt_of_le (by decide) h.1))
  · rw [h]
    rfl

theorem joinGroups_cons {n : Fin 65536} : joinGroups (n :: gs) = hexText n ++ if gs = [] then [] else ':' :: joinGroups gs := by
  cases gs with
  | nil => simp [joinGroups]
  | cons m rest => simp [joinGroups, List.intercalate]

theorem joinGroups_chars : ∀ c ∈ joinGroups gs, isAddressChar c = true := by
  induction gs with
  | nil => intro c hc; exact absurd hc (by simp [joinGroups])
  | cons n rest ih =>
    intro c hc
    rw [joinGroups_cons, List.mem_append] at hc
    cases hc with
    | inl h => simp [isAddressChar, (hexText_segment n).2 c h]
    | inr h =>
      split at h
      · exact absurd h (by simp)
      · cases List.mem_cons.mp h with
        | inl hcolon => rw [hcolon]; rfl
        | inr hrest => exact ih c hrest

/-- An address is printed with its own characters only. -/
theorem text_chars : ∀ c ∈ x.text, isAddressChar c = true := by
  intro c hc
  unfold Ipv6.text at hc
  dsimp only at hc
  split at hc
  · exact joinGroups_chars c hc
  · simp only [List.mem_append, List.mem_cons] at hc
    rcases hc with h | rfl | rfl | h
    · exact joinGroups_chars c h
    · rfl
    · rfl
    · exact joinGroups_chars c h

theorem stripBrackets_eq {t : Text} (h : ∀ c ∈ t, c ≠ '[' ∧ c ≠ ']') : stripBrackets t = t := by
  have hhead : t.head? ≠ some '[' := fun hc => (h '[' (List.mem_of_head? hc)).1 rfl
  have hlast : t.getLast? ≠ some ']' := fun hc => (h ']' (List.mem_of_getLast? hc)).2 rfl
  unfold stripBrackets
  rw [if_neg hhead]
  exact if_neg hlast

theorem lower_eq {t : Text} (h : ∀ c ∈ t, c.toLower = c) : lower t = t :=
  (List.map_congr_left h).trans (List.map_id' t)

/-- Lowering twice is lowering once. -/
theorem lower_lower {t : Text} : lower (lower t) = lower t := by
  refine lower_eq fun c hc => ?_
  obtain ⟨d, -, rfl⟩ := List.mem_map.mp hc
  cases toLower_cases d with
  | inl h => rw [h, h]
  | inr h => exact toLower_eq (.inr (by omega))

theorem mem_of_mem_lower {t : Text} {c : Char} (hc : c ∈ lower t) (h : c.toNat < 97 ∨ 122 < c.toNat) : c ∈ t := by
  obtain ⟨d, hd, heq⟩ := List.mem_map.mp hc
  cases toLower_cases d with
  | inl hsame => rwa [← heq, hsame]
  | inr hletter => rw [heq] at hletter; omega

/-- What the check sees of a host. -/
theorem stripBrackets_hostname {host : UrlHost} :
    stripBrackets (lower (lower host.hostname)) = match host with
      | .name text _ => lower text
      | .ipv4 y => y.text
      | .ipv6 y => y.text := by
  rw [lower_lower]
  cases host with
  | name text plain =>
    refine stripBrackets_eq fun c hc => ⟨fun h => ?_, fun h => ?_⟩
    · subst h
      exact (plain _ (mem_of_mem_lower hc (by decide))).2.1 rfl
    · subst h
      exact (plain _ (mem_of_mem_lower hc (by decide))).2.2 rfl
  | ipv4 y =>
    show stripBrackets (lower y.text) = y.text
    rw [lower_eq fun c hc => (ipv4_chars c hc).2.2]
    exact stripBrackets_eq fun c hc => ⟨(ipv4_chars c hc).1, (ipv4_chars c hc).2.1⟩
  | ipv6 y =>
    have hlower : lower ('[' :: y.text ++ [']']) = '[' :: y.text ++ [']'] := by
      refine lower_eq fun c hc => ?_
      simp only [List.cons_append, List.mem_cons, List.mem_append, List.not_mem_nil, or_false] at hc
      rcases hc with rfl | h | rfl
      · rfl
      · exact (addressChar_plain (text_chars c h)).1
      · rfl
    show stripBrackets (lower ('[' :: y.text ++ [']'])) = y.text
    rw [hlower]
    simp [stripBrackets]

theorem splitOn_singleton {t : Text} {c : Char} (h : c ∉ t) : t.splitOn c = [t] := List.splitOn_eq_singleton h

theorem parseIpv4_eq_none {t : Text} (h : '.' ∉ t) : parseIpv4 t = none := by
  unfold parseIpv4
  rw [splitOn_singleton h]

theorem parseByte_of_parseIpv4 {t : Text} {y : Ipv4} (h : parseIpv4 t = some y) : ∀ p ∈ t.splitOn '.', parseByte p ≠ none := by
  intro p hp
  unfold parseIpv4 at h
  split at h
  · rename_i a b c d hsplit
    rw [hsplit] at hp
    split at h
    · rename_i ha hb hc hd
      simp only [List.mem_cons, List.not_mem_nil, or_false] at hp
      rcases hp with rfl | rfl | rfl | rfl
      · rw [ha]; nofun
      · rw [hb]; nofun
      · rw [hc]; nofun
      · rw [hd]; nofun
    · cases h
  · cases h

/-- With a final dot the text is no dotted form, which is what the check overlooks. -/
theorem parseIpv4_dotted {t : Text} : parseIpv4 (t ++ ['.']) = none := by
  have hsplit : (t ++ ['.']).splitOn '.' = t.splitOn '.' ++ [[]] := by
    rw [List.splitOn_append_cons_self]
    rfl
  cases h : parseIpv4 (t ++ ['.']) with
  | none => rfl
  | some y => exact absurd rfl (parseByte_of_parseIpv4 h [] (by rw [hsplit]; simp))

theorem isIpv6_eq_false {t : Text} (h : ':' ∉ t) : isIpv6 t = false := by
  suffices haddress : isIpv6Address (t.takeWhile (· ≠ '%')) = false by
    unfold isIpv6
    rw [haddress]
    rfl
  have hin : ':' ∉ t.takeWhile (· ≠ '%') := fun hc => h ((List.takeWhile_sublist _).subset hc)
  unfold isIpv6Address
  rw [splitOn_singleton hin]
  generalize t.takeWhile (· ≠ '%') = u
  have hcount : sideCount true [u] ≠ some 8 := by
    unfold sideCount
    split
    · simp
    · split
      · simp
      · split <;> simp
  have hzero : isCompressedAt [u] 0 = false := by simp [isCompressedAt, sideCount]
  simp [hcount, hzero]

/-- Every printed address is taken for one. -/
theorem isIpv6_text : isIpv6 x.text = true := by
  have hpercent : '%' ∉ x.text := fun h => (addressChar_plain (text_chars '%' h)).2.2.2.1 rfl
  have htake : x.text.takeWhile (· ≠ '%') = x.text :=
    List.takeWhile_eq_self_iff.mpr fun c hc => by simpa using fun h : c = '%' => hpercent (h ▸ hc)
  have hdrop : x.text.dropWhile (· ≠ '%') = [] :=
    List.dropWhile_eq_nil_iff.mpr fun c hc => by simpa using fun h : c = '%' => hpercent (h ▸ hc)
  suffices haddress : isIpv6Address x.text = true by
    unfold isIpv6
    rw [htake, hdrop, haddress]
    rfl
  have hrun : (longestRun x.groups).1 + (longestRun x.groups).2 ≤ x.groups.length := longestRun_le
  rw [length_groups] at hrun
  unfold isIpv6Address Ipv6.text
  dsimp only
  split
  · rw [splitOn_joinGroups, sideCount_sidePieces, length_groups]
    rfl
  · rename_i hn
    generalize hl : x.groups.take (longestRun x.groups).1 = left
    generalize hr : x.groups.drop ((longestRun x.groups).1 + (longestRun x.groups).2) = right
    have hleft : left.length = (longestRun x.groups).1 := by
      rw [← hl, List.length_take, length_groups]
      omega
    have hright : right.length = 8 - ((longestRun x.groups).1 + (longestRun x.groups).2) := by
      rw [← hr, List.length_drop, length_groups]
    have hsplit : (joinGroups left ++ ':' :: ':' :: joinGroups right).splitOn ':' =
        sidePieces left ++ [] :: sidePieces right := by
      rw [List.splitOn_append_cons_self, splitOn_joinGroups, show (':' :: joinGroups right) = [] ++ ':' :: joinGroups right from rfl,
        List.splitOn_append_cons_self, splitOn_joinGroups]
      rfl
    have hat : isCompressedAt (sidePieces left ++ [] :: sidePieces right) (sidePieces left).length = true := by
      have hdropped : (sidePieces left ++ [] :: sidePieces right).drop ((sidePieces left).length + 1) = sidePieces right := by
        rw [List.drop_append, List.drop_eq_nil_of_le (Nat.le_succ _)]
        simp
      unfold isCompressedAt
      rw [hdropped, List.take_left', sideCount_sidePieces, sideCount_sidePieces]
      · simp
        omega
      · rfl
    rw [hsplit]
    simp only [Bool.or_eq_true, List.any_eq_true, List.mem_range]
    exact .inr ⟨_, by simp, hat⟩

/-! ## The texts of the addresses not to be reached -/

/-- The head is written out unless the run of zeros starts there. -/
theorem text_head (h : x.head ≠ 0) : ∃ rest, x.text = hexText x.head ++ ':' :: rest := by
  have hfirst : (longestRun x.groups).2 < 2 ∨ (longestRun x.groups).1 ≠ 0 := by
    have hzero : leadingZeros (x.head :: x.tail) = 0 := by
      unfold leadingZeros
      rw [if_neg h]
    unfold Ipv6.groups longestRun
    rw [hzero]
    split
    · exact .inl (by decide)
    · exact .inr (Nat.succ_ne_zero _)
  unfold Ipv6.text
  dsimp only
  split
  · have htail : x.tail ≠ [] := fun hnil => by
      have height := x.eight
      rw [hnil] at height
      cases height
    exact ⟨joinGroups x.tail, by unfold Ipv6.groups; rw [joinGroups_cons, if_neg htail]⟩
  · rename_i hn
    obtain ⟨i, hi⟩ := Nat.exists_eq_succ_of_ne_zero (hfirst.resolve_left hn)
    rw [hi]
    unfold Ipv6.groups
    rw [List.take_succ_cons, joinGroups_cons, List.append_assoc]
    split
    · exact ⟨_, rfl⟩
    · exact ⟨_, by rw [List.cons_append]⟩

/-- The groups of the link-local range by their digits: only `fe80` begins as the check wants. -/
theorem hexText_linkLocal : ∀ k : Fin 64,
    hexText ⟨0xfe80 + k, by omega⟩ = ['f', 'e', hexDigit (8 + k / 16), hexDigit (k % 16)] ∧
    ((hexDigit (8 + k / 16) = '8' ∧ hexDigit (k % 16) = '0') ↔ k = 0) := by
  decide +kernel

/-- The groups of the unique-local range, which all begin with `fc` or `fd`. -/
theorem hexText_uniqueLocal : ∀ k : Fin 512,
    hexText ⟨0xfc00 + k, by omega⟩ = ['f', hexDigit (12 + k / 256), hexDigit (k / 16 % 16), hexDigit (k % 16)] ∧
    (hexDigit (12 + k / 256) = 'c' ∨ hexDigit (12 + k / 256) = 'd') := by
  decide +kernel

/-- A mapped address is printed with `::ffff` in front. -/
theorem text_mapped {y : Ipv4} (h : x.mapped = some y) : ∃ rest, x.text = ':' :: ':' :: 'f' :: rest := by
  unfold Ipv6.mapped at h
  split at h
  · rename_i a b hgroups
    have hrun : longestRun x.groups = (0, 5) := by
      rw [hgroups]
      by_cases ha : a = 0
      · by_cases hb : b = 0
        · rw [ha, hb]
          rfl
        · simp [longestRun, leadingZeros, ha, hb]
      · by_cases hb : b = 0
        · simp [longestRun, leadingZeros, ha, hb]
        · simp [longestRun, leadingZeros, ha, hb]
    unfold Ipv6.text
    rw [hrun, hgroups]
    exact ⟨_, rfl⟩
  · cases h

/-! ## What is taken for private -/

/-- What the check compares the text of an IPv6 address with. -/
def comparedIpv6 (t : Text) : Bool :=
  t = "::1".toList || t = "::".toList || "fe80".toList.isPrefixOf t || "fc".toList.isPrefixOf t || "fd".toList.isPrefixOf t

/-- Of an IPv6 host the check compares the printed form. -/
theorem isPrivateHost_ipv6 : isPrivateHost (lower (UrlHost.ipv6 x).hostname) = comparedIpv6 x.text := by
  have hpoint : '.' ∉ x.text := fun h => (addressChar_plain (text_chars '.' h)).2.2.2.2.1 rfl
  have hletter : 'l' ∉ x.text := fun h => (addressChar_plain (text_chars 'l' h)).2.2.2.2.2 rfl
  unfold isPrivateHost
  rw [stripBrackets_hostname]
  dsimp only
  rw [if_neg, parseIpv4_eq_none hpoint, isIpv6_text]
  · exact Bool.true_and _
  · intro hlocal
    rw [Bool.or_eq_true, Bool.or_eq_true, decide_eq_true_eq, List.isSuffixOf_iff_suffix, List.isSuffixOf_iff_suffix] at hlocal
    rcases hlocal with (h | h) | h
    · exact hletter (by rw [h]; decide)
    · exact hpoint (h.subset (by decide))
    · exact hpoint (h.subset (by decide))

/-- Every forbidden IPv4 range is one the check knows. -/
theorem private_ipv4 {y : Ipv4} (h : y.IsForbidden) : isPrivateIpv4 y = true := by
  unfold isPrivateIpv4
  simp only [Bool.or_eq_true, Bool.and_eq_true, decide_eq_true_eq]
  rcases h with rfl | h | h | h | h | h
  · exact .inr rfl
  · exact .inl (.inl (.inl (.inl (.inr h))))
  · exact .inl (.inr h)
  · exact .inl (.inl (.inl (.inl (.inl h))))
  · exact .inl (.inl (.inl (.inr ⟨⟨h.1, h.2.1⟩, h.2.2⟩)))
  · exact .inl (.inl (.inr h))

theorem private_of_ipv4 {host : Text} {y : Ipv4} (hhost : parseIpv4 (stripBrackets (lower host)) = some y)
    (hy : y.IsForbidden) : isPrivateHost host = true := by
  unfold isPrivateHost
  dsimp only
  split
  · rfl
  · rw [hhost]
    exact private_ipv4 hy

/-- And so is localhost. -/
theorem private_of_localhost {host : Text} (h : IsLocalhost (stripBrackets (lower host))) : isPrivateHost host = true := by
  unfold isPrivateHost
  refine if_pos ?_
  rw [Bool.or_eq_true, Bool.or_eq_true, decide_eq_true_eq, List.isSuffixOf_iff_suffix]
  exact .inl h

theorem getLast?_of_suffix {s t : Text} (h : s <:+ t) (hs : s ≠ []) : t.getLast? = s.getLast? := by
  obtain ⟨p, rfl⟩ := h
  rw [List.getLast?_append_of_ne_nil _ hs]

/-- A name with a trailing dot is not taken for anything. -/
theorem not_private_dotted {host t : Text} (hhost : stripBrackets (lower host) = t) (hcolon : ':' ∉ t)
    (hdot : t.getLast? = some '.') : isPrivateHost host = false := by
  have hsuffix : ∀ s : Text, s ≠ [] → s.getLast? ≠ some '.' → ¬s <:+ t := fun s hs hlast h =>
    hlast ((getLast?_of_suffix h hs).symm.trans hdot)
  obtain ⟨u, hu⟩ := List.getLast?_eq_some_iff.mp hdot
  unfold isPrivateHost
  rw [hhost]
  dsimp only
  rw [if_neg]
  · rw [isIpv6_eq_false hcolon, hu, parseIpv4_dotted]
    rfl
  · intro hlocal
    rw [Bool.or_eq_true, Bool.or_eq_true, decide_eq_true_eq, List.isSuffixOf_iff_suffix, List.isSuffixOf_iff_suffix] at hlocal
    rcases hlocal with (h | h) | h
    · exact hsuffix "localhost".toList (by decide) (by decide) (h ▸ List.suffix_refl _)
    · exact hsuffix _ (by decide) (by decide) h
    · exact hsuffix _ (by decide) (by decide) h

/-- What the check compares with. -/
theorem comparedIpv6_iff {t : Text} : comparedIpv6 t = true ↔ t = [':', ':', '1'] ∨ t = [':', ':'] ∨
    ['f', 'e', '8', '0'] <+: t ∨ ['f', 'c'] <+: t ∨ ['f', 'd'] <+: t := by
  unfold comparedIpv6
  rw [Bool.or_eq_true, Bool.or_eq_true, Bool.or_eq_true, Bool.or_eq_true, decide_eq_true_eq, decide_eq_true_eq,
    List.isPrefixOf_iff_prefix, List.isPrefixOf_iff_prefix, List.isPrefixOf_iff_prefix, or_assoc, or_assoc, or_assoc]
  rfl

/-- Of the link-local range it knows the first group only. -/
theorem compared_linkLocal {n : Fin 65536} {rest : Text} (h : 0xfe80 ≤ n.val ∧ n.val < 0xfec0) :
    comparedIpv6 (hexText n ++ ':' :: rest) = true ↔ n.val = 0xfe80 := by
  obtain ⟨k, hk⟩ := Nat.exists_eq_add_of_le h.1
  have hlt : k < 64 := by omega
  obtain ⟨htext, hdigits⟩ := hexText_linkLocal ⟨k, hlt⟩
  have hn : n = ⟨0xfe80 + k, by omega⟩ := Fin.ext hk
  have hzero : n.val = 0xfe80 ↔ (⟨k, hlt⟩ : Fin 64) = 0 := by
    rw [Fin.ext_iff, hk]
    exact Nat.add_eq_left
  rw [hzero, ← hdigits, hn, htext, comparedIpv6_iff]
  simp only [List.cons_append, List.nil_append, List.cons_prefix_cons, List.nil_prefix, List.cons.injEq]
  have hf : ('f' : Char) ≠ ':' := by decide
  have hec : ('c' : Char) ≠ 'e' := by decide
  have hed : ('d' : Char) ≠ 'e' := by decide
  simp only [hf, hec, hed, false_and, and_false, true_and, and_true, false_or, or_false]
  exact ⟨fun heq => ⟨heq.1.symm, heq.2.symm⟩, fun heq => ⟨heq.1.symm, heq.2.symm⟩⟩

/-- The unique-local range it knows whole. -/
theorem compared_uniqueLocal {n : Fin 65536} {rest : Text} (h : 0xfc00 ≤ n.val ∧ n.val < 0xfe00) :
    comparedIpv6 (hexText n ++ ':' :: rest) = true := by
  obtain ⟨k, hk⟩ := Nat.exists_eq_add_of_le h.1
  have hlt : k < 512 := by omega
  obtain ⟨htext, hdigits⟩ := hexText_uniqueLocal ⟨k, hlt⟩
  have hn : n = ⟨0xfc00 + k, by omega⟩ := Fin.ext hk
  rw [hn, htext, comparedIpv6_iff]
  cases hdigits with
  | inl hc => exact .inr (.inr (.inr (.inl ⟨_, by rw [hc]; rfl⟩)))
  | inr hd => exact .inr (.inr (.inr (.inr ⟨_, by rw [hd]; rfl⟩)))

/-- Of the hosts that are not to be reached, the check misses the overlooked ones. -/
theorem not_private_iff {host : UrlHost} (h : host.target.IsForbidden) :
    isPrivateHost (lower host.hostname) = false ↔ host.Overlooked := by
  cases host with
  | name text plain =>
    have hstrip : stripBrackets (lower (lower (UrlHost.name text plain).hostname)) = lower text := stripBrackets_hostname
    constructor
    · intro hprivate
      refine ⟨h, ?_⟩
      -- without the final dot the check compares the very name the address is resolved from
      by_contra hdot
      have hdrop : dropDot (lower text) = lower text := if_neg hdot
      unfold UrlHost.target at h
      dsimp only at h
      rw [hdrop] at h
      have htaken : isPrivateHost (lower (UrlHost.name text plain).hostname) = true := by
        split at h
        · rename_i y hy
          exact private_of_ipv4 (by rw [hstrip]; exact hy) h
        · exact private_of_localhost (by rw [hstrip]; exact h)
      rw [hprivate] at htaken
      cases htaken
    · intro hover
      refine not_private_dotted hstrip (fun hc => ?_) hover.2
      exact (plain _ (mem_of_mem_lower hc (by decide))).1 rfl
  | ipv4 y =>
    have hstrip : stripBrackets (lower (lower (UrlHost.ipv4 y).hostname)) = y.text := stripBrackets_hostname
    have htaken : isPrivateHost (lower (UrlHost.ipv4 y).hostname) = true :=
      private_of_ipv4 (by rw [hstrip]; exact parseIpv4_text y) h
    rw [htaken]
    exact ⟨nofun, nofun⟩
  | ipv6 x =>
    rw [isPrivateHost_ipv6]
    cases hmapped : x.mapped with
    | some y =>
      obtain ⟨rest, hrest⟩ := text_mapped hmapped
      rw [hrest]
      unfold UrlHost.target at h
      dsimp only at h
      rw [hmapped] at h
      exact iff_of_true rfl (.inl ⟨y, hmapped, h⟩)
    | none =>
      unfold UrlHost.target at h
      dsimp only at h
      rw [hmapped] at h
      -- `h` says which of the four forbidden ranges the address lies in
      have hover : (UrlHost.ipv6 x).Overlooked ↔ 0xfe80 < x.head.val ∧ x.head.val < 0xfec0 :=
        or_iff_right fun hany => by
          obtain ⟨y, hy, -⟩ := hany
          rw [hmapped] at hy
          cases hy
      rw [hover]
      rcases h with hgroups | hgroups | hlink | hlocal
      · have htext : x.text = [':', ':'] := by
          unfold Ipv6.text
          rw [hgroups]
          rfl
        rw [htext, (List.cons.inj hgroups).1]
        exact iff_of_false (by decide) (by decide)
      · have htext : x.text = [':', ':', '1'] := by
          unfold Ipv6.text
          rw [hgroups]
          rfl
        rw [htext, (List.cons.inj hgroups).1]
        exact iff_of_false (by decide) (by decide)
      · obtain ⟨rest, hrest⟩ := text_head (x := x) fun h0 => by
          rw [h0] at hlink
          exact absurd hlink.1 (by decide)
        -- the one range the check reads only the front of: `fe80:` is compared, `fe81:` to `febf:` are not
        rw [hrest, ← Bool.not_eq_true, compared_linkLocal hlink]
        omega
      · obtain ⟨rest, hrest⟩ := text_head (x := x) fun h0 => by
          rw [h0] at hlocal
          exact absurd hlocal.1 (by decide)
        rw [hrest, compared_uniqueLocal hlocal]
        exact iff_of_false nofun (by omega)

theorem forbidden_of_overlooked {host : UrlHost} (h : host.Overlooked) : host.target.IsForbidden := by
  cases host with
  | name text plain => exact h.1
  | ipv4 y => exact h.elim
  | ipv6 y =>
    unfold UrlHost.target
    dsimp only
    cases hmapped : y.mapped with
    | some z =>
      cases h with
      | inl h =>
        obtain ⟨w, hw, hforbidden⟩ := h
        rw [hmapped] at hw
        cases hw
        exact hforbidden
      | inr h =>
        unfold Ipv6.mapped at hmapped
        split at hmapped
        · rename_i a b hgroups
          rw [(List.cons.inj hgroups).1] at h
          exact absurd h.1 (by decide)
        · cases hmapped
    | none =>
      cases h with
      | inl h =>
        obtain ⟨w, hw, -⟩ := h
        rw [hmapped] at hw
        cases hw
      | inr h => exact .inr (.inr (.inl ⟨Nat.le_of_lt h.1, h.2⟩))

/-! ## What the check lets pass -/

variable {url : String → Option Url} {ref : PayloadRef} {policy : FetchPolicy} {uri : String} {u : Url}

/-- A URI passes by its scheme, and by a host that is allowed or not private. -/
theorem checkUri_eq_none (hu : url uri = some u) : checkUri url policy uri = none ↔
    (schemes policy).contains (scheme u) = true ∧
      (isAllowedHost policy (lower u.host.hostname) = true ∨ isPrivateHost (lower u.host.hostname) = false) := by
  unfold checkUri
  rw [hu]
  dsimp only
  split
  · rename_i hscheme
    split
    · rename_i hboth
      rw [Bool.and_eq_true, Bool.not_eq_true'] at hboth
      simp [hboth.1, hboth.2]
    · rename_i hboth
      refine iff_of_true rfl ⟨hscheme, ?_⟩
      rw [Bool.and_eq_true, Bool.not_eq_true', not_and_or, Bool.not_eq_false, Bool.not_eq_true] at hboth
      exact hboth
  · rename_i hscheme
    exact iff_of_false nofun fun h => hscheme h.1

/-- A reference passes by all that is no address, and by its host. -/
theorem checkPayloadRef_eq_none (href : refUri ref = some uri) (hu : url uri = some u) : checkPayloadRef url ref policy = none ↔
    Passable ref policy u ∧
      (isAllowedHost policy (lower u.host.hostname) = true ∨ isPrivateHost (lower u.host.hostname) = false) := by
  have hany : (refRepo ref).any (fun repo => !"https://".isPrefixOf repo) = !(refRepo ref).all (fun repo => "https://".isPrefixOf repo) := by
    cases refRepo ref with
    | none => rfl
    | some repo => rfl
  unfold checkPayloadRef
  rw [href, hany]
  rw [if_neg (by simp), Option.bind_some]
  -- the checks of the source in its order: the repository, the URI, the size, its limit
  cases hrepo : (refRepo ref).all (fun repo => "https://".isPrefixOf repo) with
  | false => exact iff_of_false nofun fun h => Bool.false_ne_true (hrepo.symm.trans h.1.repo)
  | true =>
    rw [Bool.not_true, if_neg Bool.false_ne_true]
    cases hcheck : checkUri url policy uri with
    | some reason =>
      refine iff_of_false nofun fun h => ?_
      rw [(checkUri_eq_none hu).mpr ⟨h.1.scheme, h.2⟩] at hcheck
      cases hcheck
    | none =>
      obtain ⟨hscheme, hallowed⟩ := (checkUri_eq_none hu).mp hcheck
      cases hsize : Json.isNonnegative ref.size with
      | false => exact iff_of_false nofun fun h => Bool.false_ne_true (hsize.symm.trans h.1.size)
      | true =>
        dsimp only
        rw [Bool.not_true, if_neg Bool.false_ne_true]
        cases hmax : policy.maxBytes with
        | none =>
          refine iff_of_true rfl ⟨⟨hrepo, hscheme, hsize, fun max h => ?_⟩, hallowed⟩
          rw [hmax] at h
          cases h
        | some max =>
          dsimp only
          split
          · rename_i hlt
            exact iff_of_false nofun fun h => absurd hlt (not_lt_of_ge (h.1.max max hmax))
          · rename_i hle
            refine iff_of_true rfl ⟨⟨hrepo, hscheme, hsize, fun m h => ?_⟩, hallowed⟩
            rw [hmax] at h
            cases h
            exact not_lt.mp hle

/-- A host is allowed if it normalises to the same as an entry of the list. -/
theorem isAllowedHost_iff {host : Text} : isAllowedHost policy host = true ↔
    ∃ a ∈ policy.allowHosts.getD [], norm a.toList = norm host := by
  unfold isAllowedHost
  simp

/-- A reference is barred exactly if another check refuses it or its host is covered. -/
theorem private_barrier (url : String → Option Url) (ref : PayloadRef) (policy : FetchPolicy) :
    Barred url ref policy ↔
      ∀ uri u, refUri ref = some uri → url uri = some u → Passable ref policy u → Covered url policy u.host := by
  constructor
  · intro hbarred uri u href hu hpass
    constructor
    -- a host of a forbidden range that the check takes for public is let through
    · intro hover
      have hforbidden := forbidden_of_overlooked hover
      refine hbarred.refused uri u href hu hforbidden ((checkPayloadRef_eq_none href hu).mpr ⟨hpass, .inr ?_⟩)
      exact (not_private_iff hforbidden).mpr hover
    -- a name that only normalises to an allowed one is not on the list
    · intro hprivate a ha hnorm
      refine hbarred.admitted uri u href hu a ha (fun hnone => ?_) ?_
      · obtain ⟨-, hallowed⟩ := (checkPayloadRef_eq_none href hu).mp hnone
        cases hallowed with
        | inl h => exact Bool.false_ne_true h
        | inr h => exact Bool.false_ne_true (h.symm.trans hprivate)
      · exact (checkPayloadRef_eq_none href hu).mpr
          ⟨⟨hpass.repo, hpass.scheme, hpass.size, hpass.max⟩, .inl (isAllowedHost_iff.mpr ⟨a, List.mem_singleton_self a, hnorm⟩)⟩
  -- back: both parts of the barrier, from what the check lets through
  · intro hcovered
    constructor
    · intro uri u href hu hforbidden hnone
      obtain ⟨hpass, hallowed⟩ := (checkPayloadRef_eq_none href hu).mp hnone
      have hhost := hcovered uri u href hu hpass
      cases hprivate : isPrivateHost (lower u.host.hostname) with
      | false => exact hhost.overlooked ((not_private_iff hforbidden).mp hprivate)
      | true =>
        rw [hprivate] at hallowed
        obtain ⟨a, ha, hnorm⟩ := isAllowedHost_iff.mp (hallowed.resolve_right nofun)
        exact ⟨a, ha, hhost.exact hprivate a ha hnorm⟩
    · intro uri u href hu a ha hrefused hadmitted
      obtain ⟨hpass, hallowed⟩ := (checkPayloadRef_eq_none href hu).mp hadmitted
      have hpassable : Passable ref policy u := ⟨hpass.repo, hpass.scheme, hpass.size, hpass.max⟩
      have hprivate : isPrivateHost (lower u.host.hostname) = true := by
        by_contra h
        exact hrefused ((checkPayloadRef_eq_none href hu).mpr
          ⟨⟨hpass.repo, hpass.scheme, hpass.size, hpass.max⟩, .inr (Bool.not_eq_true _ ▸ h)⟩)
      rw [hprivate] at hallowed
      obtain ⟨b, hb, hnorm⟩ := isAllowedHost_iff.mp (hallowed.resolve_right nofun)
      rw [List.mem_singleton.mp hb] at hnorm
      exact (hcovered uri u href hu hpassable).exact hprivate a ha hnorm

end

namespace TwoAddresses

/-- 127.0.0.1 as an IPv6 address. -/
def mapped : Ipv6 := ⟨0, [0, 0, 0, 0, 0xffff, 0x7f00, 1], rfl⟩

def local1 : Ipv6 := ⟨0xfd00, [0, 0, 0, 0, 0, 0, 1], rfl⟩

def local2 : Ipv6 := ⟨0xfd00, [0, 0, 0, 0, 0, 0, 2], rfl⟩

def url (s : String) : Option Url :=
  if s = "https://[::ffff:127.0.0.1]/x" then some ⟨"https:", .ipv6 mapped⟩
  else if s = "https://[fd00::1]/" then some ⟨"https:", .ipv6 local1⟩
  else if s = "https://[fd00::2]/" then some ⟨"https:", .ipv6 local2⟩
  else none

def policy : FetchPolicy := ⟨none, none, none⟩

/-- The loopback address passes, and an entry for `fd00::1` admits `fd00::2`. -/
theorem not_private_barrier :
    ¬Barred url ⟨some "https://[::ffff:127.0.0.1]/x", none, 1⟩ policy ∧
    ¬Barred url ⟨some "https://[fd00::2]/", none, 1⟩ { policy with allowHosts := some ["[fd00::1]"] } := by
  constructor
  · intro hbarred
    obtain ⟨a, ha, -⟩ := hbarred.refused "https://[::ffff:127.0.0.1]/x" ⟨"https:", .ipv6 mapped⟩ rfl (by simp [url]) (.inr (.inl rfl))
      (by decide +kernel)
    cases ha
  · intro hbarred
    have hdenotes := hbarred.admitted "https://[fd00::2]/" ⟨"https:", .ipv6 local2⟩ rfl (by simp [url]) "[fd00::1]"
      (List.mem_singleton_self _) (by decide +kernel) (by decide +kernel)
    revert hdenotes
    unfold Denotes
    decide +kernel

end TwoAddresses

end Executor
end Qlong
