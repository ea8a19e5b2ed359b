import Qlong.Core.Protocol

/-!
# Envelopes

`packages/core/src/envelope.ts` and what the node adds around it: the shape check every
envelope passes at every door, and the sealer that assembles and signs an outgoing one
(`createDurableNode` in `packages/node/src/runtime/node.ts`).

An envelope is a JSON value here, as it is on the wire; `Env.*` reads the fields the code
reads. `validateEnvelope` answers the list of its complaints, each naming its field, and an
envelope is admitted when there is none. **`validateEnvelope_ok_iff`** is the one place where
the list is taken apart.

What the code takes from elsewhere is a `Host`: the digest (`sha256Hex ∘ jcs`), the calendar,
the signer. Its fields carry the documented behaviour the code relies on.
-/

namespace Qlong

/-! ## What the platform provides -/

/-- The 64 characters of the base64 alphabet, and the four of them a 64-byte text can end in. -/
def isBase64Char (c : Char) : Bool :=
  ('A' ≤ c && c ≤ 'Z') || ('a' ≤ c && c ≤ 'z') || ('0' ≤ c && c ≤ '9') || c == '+' || c == '/'

/-- The text `Buffer.toString('base64')` writes for 64 bytes: 86 characters of the alphabet, the
    last of which has its low four bits zero, and `==`. This is what
    `Buffer.from(v, 'base64').length === 64 &&
    Buffer.from(v, 'base64').toString('base64') === v` tests. -/
def isSignatureText (s : String) : Bool :=
  let cs := ascii s
  decide (cs.length = 88) && (cs.take 86).all isBase64Char &&
    decide (cs[85]? ∈ [some 'A', some 'Q', some 'g', some 'w']) && decide (cs.drop 86 = ['=', '='])

/-- The platform: SHA-256 over canonical JSON, `Date`, base64 and the node's signing key. -/
structure Host where
  /-- `sha256Hex(jcs(v))` -/
  digest : Json → String
  /-- `Date.parse`, `none` for `NaN` -/
  dateParse : String → Option Int
  /-- `new Date(t).toISOString()` -/
  toISOString : Int → String
  /-- `Buffer.from(s, 'base64').length` -/
  base64Length : String → Nat
  /-- `toBase64(sign(signatureInput(v)))` -/
  sign : Json → String
  /-- Lower-case hexadecimal, 64 digits. -/
  digest_hex : ∀ v, isDigest (digest v) = true
  /-- The digest is one of the canonical text. -/
  digest_canonical : ∀ v w, v.canonical = w.canonical → digest v = digest w
  /-- An Ed25519 signature is 64 bytes. -/
  sign_text : ∀ v, isSignatureText (sign v) = true
  /-- Decoding undoes encoding. -/
  base64_signature : ∀ s, isSignatureText s = true → base64Length s = 64

/-- A platform given by finite tables: the digests of the values that matter and the instants
    that matter. Every other digest is 64 zeros, every other instant is the epoch. -/
def Host.ofTables (digests : List (Json × String)) (calendar : List (String × Int)) : Host where
  digest v := ((digests.find? fun d => d.1.canonical = v.canonical && isDigest d.2).map Prod.snd).getD
    (String.ofList (List.replicate 64 '0'))
  dateParse s := (calendar.find? fun d => d.1 = s).map Prod.snd
  toISOString n := ((calendar.find? fun d => d.2 = n).map Prod.fst).getD "1970-01-01T00:00:00.000Z"
  base64Length s := if isSignatureText s then 64 else 0
  sign _ := String.ofList (List.replicate 86 'A' ++ ['=', '='])
  digest_hex v := by
    cases h : digests.find? fun d => d.1.canonical = v.canonical && isDigest d.2 with
    | none => simpa using by decide
    | some d =>
      have hd := List.find?_some h
      simp only [Bool.and_eq_true] at hd
      simpa using hd.2
  digest_canonical v w h := by simp only [h]
  sign_text _ := by decide
  base64_signature s h := by simp only [h, if_true]

/-! ## Reading an envelope -/

namespace Env

def type (e : Json) : String := (e.getStr "type").getD ""

def msgId (e : Json) : String := (e.getStr "msg_id").getD ""

def fromNode (e : Json) : String := ((e.get "from").bind (·.getStr "node_id")).getD ""

def fromTeam (e : Json) : Option String := (e.get "from").bind (·.getStr "team_id")

def toNode (e : Json) : String := ((e.get "to").bind (·.getStr "node_id")).getD ""

def taskId (e : Json) : Option String := e.getStr "task_id"

def attempt (e : Json) : Option Int := e.getNum "attempt"

def ts (e : Json) : String := (e.getStr "ts").getD ""

def exp (e : Json) : Option String := e.getStr "exp"

def body (e : Json) : Json := (e.get "body").getD .null

/-- `!!e.sig`. -/
def hasSig (e : Json) : Bool :=
  match e.get "sig" with
  | some v => v.isRecord
  | none => false

end Env

/-! ## Grammars -/

/-- The digits a timestamp and a uuid are written with. -/
def isDigit (c : Char) : Bool := '0' ≤ c && c ≤ '9'

/-- The letters a type may be written with. -/
def isLowerLetter (c : Char) : Bool := 'a' ≤ c && c ≤ 'z'

/-- `[a-z0-9-]`. -/
def isTypeChar (c : Char) : Bool := isLowerLetter c || isDigit c || c == '-'

/-- `s.split('.')`. -/
def splitDots : List Char → List (List Char)
  | [] => [[]]
  | c :: rest =>
    if c = '.' then [] :: splitDots rest
    else match splitDots rest with
      | [] => [[c]]
      | part :: parts => (c :: part) :: parts

/-- `TYPE_RE.test(s)`: a lower-case word, then at least one more part. -/
def isTypeName (s : String) : Bool :=
  match splitDots s.toList with
  | (c :: first) :: part :: parts =>
    isLowerLetter c && first.all isTypeChar &&
      (part :: parts).all fun p => !p.isEmpty && p.all isTypeChar
  | _ => false

/-- `familyOf(type)`. -/
def familyOf (s : String) : String :=
  match splitDots s.toList with
  | part :: _ => String.ofList part
  | [] => ""

/-- `n` digits, then the rest. -/
def dropDigits : Nat → List Char → Option (List Char)
  | 0, cs => some cs
  | n + 1, c :: cs => if isDigit c then dropDigits n cs else none
  | _ + 1, [] => none

/-- One character of the form is taken from the text, or the text is not of the form. -/
def dropChar (p : Char → Bool) : List Char → Option (List Char)
  | c :: cs => if p c then some cs else none
  | [] => none

/-- The zone of a timestamp: `Z`, or a sign and an hour and a minute. -/
def isZone (cs : List Char) : Bool :=
  match cs with
  | [c] => c == 'Z' || c == 'z'
  | _ =>
    (do let cs ← dropChar (fun c => c == '+' || c == '-') cs
        let cs ← dropDigits 2 cs
        let cs ← dropChar (· == ':') cs
        dropDigits 2 cs) == some []

/-- What follows the seconds: an optional fraction, then the zone. -/
def isFractionAndZone (cs : List Char) : Bool :=
  match cs with
  | '.' :: c :: rest => isDigit c && isZone (rest.dropWhile isDigit)
  | _ => isZone cs

/-- `RFC3339_RE.test(s)`. -/
def isRfc3339Text (s : String) : Bool :=
  match (do let cs ← dropDigits 4 (ascii s)
            let cs ← dropChar (· == '-') cs
            let cs ← dropDigits 2 cs
            let cs ← dropChar (· == '-') cs
            let cs ← dropDigits 2 cs
            let cs ← dropChar (fun c => c == 'T' || c == 't') cs
            let cs ← dropDigits 2 cs
            let cs ← dropChar (· == ':') cs
            let cs ← dropDigits 2 cs
            let cs ← dropChar (· == ':') cs
            dropDigits 2 cs) with
  | some rest => isFractionAndZone rest
  | none => false

/-- `isRfc3339`: the shape, and a date the calendar knows. -/
def isRfc3339 (host : Host) (v : Option Json) : Bool :=
  match v with
  | some (.str s) => isRfc3339Text s && (host.dateParse s).isSome
  | _ => false

/-- `isNonEmptyStr`. -/
def isNonEmptyStr (v : Option Json) : Bool :=
  match v with
  | some (.str s) => decide (s ≠ "")
  | _ => false

/-! ## The check -/

/-- One complaint, unless the condition holds. -/
def check (ok : Bool) (message : String) : List String := if ok then [] else [message]

@[simp] theorem check_eq_nil {ok : Bool} {message : String} : check ok message = [] ↔ ok = true := by
  unfold check
  cases ok <;> simp

mutual
/-- `assertNoFloats`: every number a safe integer, at any depth. -/
def assertNoFloats : Json → String → List String
  | .num n, path => check (Json.isSafe n) (path ++ ": 数值必须为安全整数(D23 禁止浮点)")
  | .arr items, path => assertNoFloatsItems items path 0
  | .obj fields, path => assertNoFloatsFields fields path
  | _, _ => []

/-- The items of an array, each under its index. -/
def assertNoFloatsItems : List Json → String → Nat → List String
  | [], _, _ => []
  | x :: xs, path, i =>
    assertNoFloats x (path ++ "[" ++ toString i ++ "]") ++ assertNoFloatsItems xs path (i + 1)

/-- The fields of an object, each under its name. -/
def assertNoFloatsFields : List (String × Json) → String → List String
  | [], _ => []
  | (k, x) :: xs, path => assertNoFloats x (path ++ "." ++ k) ++ assertNoFloatsFields xs path
end

mutual
/-- A value of which nothing is reported has safe integers only. -/
theorem assertNoFloats_eq_nil : ∀ (v : Json) (path : String),
    assertNoFloats v path = [] ↔ v.safeNumbers = true
  | .null, _ | .bool _, _ | .str _, _ => by simp [assertNoFloats, Json.safeNumbers]
  | .num n, path => by simp [assertNoFloats, Json.safeNumbers]
  | .arr items, path => by
    simp only [assertNoFloats, Json.safeNumbers, assertNoFloatsItems_eq_nil items path 0]
  | .obj fields, path => by
    simp only [assertNoFloats, Json.safeNumbers, assertNoFloatsFields_eq_nil fields path]

theorem assertNoFloatsItems_eq_nil : ∀ (xs : List Json) (path : String) (i : Nat),
    assertNoFloatsItems xs path i = [] ↔ Json.safeItems xs = true
  | [], _, _ => by simp [assertNoFloatsItems, Json.safeItems]
  | x :: xs, path, i => by
    simp only [assertNoFloatsItems, Json.safeItems, List.append_eq_nil_iff, Bool.and_eq_true,
      assertNoFloats_eq_nil x, assertNoFloatsItems_eq_nil xs]

theorem assertNoFloatsFields_eq_nil : ∀ (xs : List (String × Json)) (path : String),
    assertNoFloatsFields xs path = [] ↔ Json.safeFields xs = true
  | [], _ => by simp [assertNoFloatsFields, Json.safeFields]
  | (k, x) :: xs, path => by
    simp only [assertNoFloatsFields, Json.safeFields, List.append_eq_nil_iff, Bool.and_eq_true,
      assertNoFloats_eq_nil x, assertNoFloatsFields_eq_nil xs]
end

/-- The complaints about a field that has to be an object. -/
def checkRecord (v : Option Json) (message : String) (inner : Json → List String) : List String :=
  match v with
  | some v => if v.isRecord then inner v else [message]
  | none => [message]

/-- `Number.isSafeInteger(v) && v >= 1`. -/
def isCounter (v : Option Json) : Bool := Json.positive v

/-- The sender: its node, its team and the epoch of its key. -/
def checkFrom (from' : Json) : List String :=
  check (isUuidField (from'.get "node_id")) "from.node_id: 必须为 uuid" ++
  check (isCounter (from'.get "key_epoch")) "from.key_epoch: 必须为 ≥1 的整数" ++
  check ((from'.get "team_id").isNone || isNonEmptyStr (from'.get "team_id"))
    "from.team_id: 必须为非空字符串" ++
  check ((from'.get "agent_id").isNone || isNonEmptyStr (from'.get "agent_id"))
    "from.agent_id: 必须为非空字符串"

/-- The receiver: its node and its team. -/
def checkTo (to' : Json) : List String :=
  check (isUuidField (to'.get "node_id")) "to.node_id: 必须为 uuid" ++
  check ((to'.get "team_id").isNone || isNonEmptyStr (to'.get "team_id")) "to.team_id: 必须为非空字符串"

/-- The trace: its id, the span above it and the node it began at. -/
def checkTrace (trace : Json) : List String :=
  check (isUuidField (trace.get "trace_id")) "trace.trace_id: 必须为 uuid" ++
  check (trace.get "parent_span" = some .null || isUuidField (trace.get "parent_span"))
    "trace.parent_span: 必须为 uuid 或 null(发起消息 hops=0 取 null,评审 I-43)" ++
  check (isUuidField (trace.get "origin_node")) "trace.origin_node: 必须为 uuid"

/-- The signature: its algorithm, and base64 of a signature's length. -/
def checkSig (host : Host) (sig : Json) : List String :=
  check (sig.get "alg" = some (.str "ed25519")) "sig.alg: v1 白名单仅 ed25519(D23)" ++
  (if isNonEmptyStr (sig.get "value") then
    check (((sig.getStr "value").map host.base64Length) = some 64)
      "sig.value: ed25519 签名必须为 64 字节"
  else ["sig.value: 必须为 base64 字符串"])

/-- The hop count: required of a task message and bounded there. -/
def checkHops (e : Json) (isTask : Bool) (p : QlongParams) : List String :=
  match e.get "hops" with
  | some hops =>
    if !Json.nonnegative (some hops) then ["hops: 必须为 ≥0 整数"]
    else check (!isTask || decide (∀ n ∈ hops.asNum, n ≤ p.maxHops))
      ("hops: 超过 MAX_HOPS=" ++ toString p.maxHops)
  | none => check (!isTask) "hops: task.* 必填"

/-- The task coordinates: required of a task message, well formed wherever they stand. -/
def checkTask (e : Json) (isTask : Bool) : List String :=
  if isTask then
    check (isUuidField (e.get "task_id")) "task_id: task.* 必填且必须为 uuid" ++
    check (isCounter (e.get "attempt")) "attempt: task.* 必填且 ≥1"
  else
    check ((e.get "task_id").isNone || isUuidField (e.get "task_id")) "task_id: 必须为 uuid" ++
    check ((e.get "attempt").isNone || isCounter (e.get "attempt")) "attempt: 必须为 ≥1 整数"

/-- The expiry: a task message must have one, and where it is there it is a timestamp. -/
def checkExp (host : Host) (e : Json) (isTask : Bool) : List String :=
  match e.get "exp" with
  | some exp => check (isRfc3339 host (some exp)) "exp: 必须为 RFC3339"
  | none => check (!isTask) "exp: task.* 必填(D24)"

def isTaskType (e : Json) : Bool := decide (familyOf (Env.type e) = "task")

def isRpcType (e : Json) : Bool := decide (familyOf (Env.type e) = "rpc")

/-- `validateEnvelope`: all complaints, in the order of the source. -/
def validateEnvelope (host : Host) (p : QlongParams) (allowMissingSig : Bool) (e : Json) :
    List String :=
  if !e.isRecord then ["envelope: 必须为 JSON 对象"]
  else
    check (e.get "v" = some (.num 1)) "v: 必须为 1" ++
    check (isTypeName (Env.type e)) "type: 必须为小写点分命名 族.动作[.子动作]" ++
    check (isUuidField (e.get "msg_id")) "msg_id: 必须为 uuid" ++
    check (isRfc3339 host (e.get "ts")) "ts: 必须为 RFC3339" ++
    check ((e.get "reply_to").isNone || isUuidField (e.get "reply_to")) "reply_to: 必须为 uuid" ++
    checkRecord (e.get "from") "from: 必须为对象" checkFrom ++
    checkRecord (e.get "to") "to: 必须为对象" checkTo ++
    checkRecord (e.get "trace") "trace: 必须为对象 \x7btrace_id, parent_span, origin_node\x7d" checkTrace ++
    checkHops e (isTaskType e) p ++
    checkTask e (isTaskType e) ++
    checkExp host e (isTaskType e) ++
    (if isTaskType e || isRpcType e then
      match e.get "sig" with
      | some sig =>
        if sig.isRecord then checkSig host sig
        else check allowMissingSig "sig: task.*/rpc.* 必填 \x7balg, value\x7d(§3.3.1)"
      | none => check allowMissingSig "sig: task.*/rpc.* 必填 \x7balg, value\x7d(§3.3.1)"
    else []) ++
    checkRecord (e.get "body") "body: 必须为对象" (fun _ => []) ++
    assertNoFloats e "envelope"

/-! ## What an admitted envelope is -/

/-- A field that must be a record, with checks of its own. -/
theorem checkRecord_eq_nil {v : Option Json} {message : String} {inner : Json → List String} :
    checkRecord v message inner = [] ↔ ∃ x, v = some x ∧ x.isRecord = true ∧ inner x = [] := by
  unfold checkRecord
  cases v with
  | none => simp
  | some x => by_cases hx : x.isRecord = true <;> simp [hx]

/-- The signature clause of the check. -/
def SigOk (host : Host) (allowMissingSig : Bool) (e : Json) : Prop :=
  match e.get "sig" with
  | some sig => if sig.isRecord then checkSig host sig = [] else allowMissingSig = true
  | none => allowMissingSig = true

/-- The clauses of the check, one by one. -/
structure WellFormed (host : Host) (p : QlongParams) (allowMissingSig : Bool) (e : Json) : Prop where
  record : e.isRecord = true
  version : e.get "v" = some (.num 1)
  typeName : isTypeName (Env.type e) = true
  msgId : isUuidField (e.get "msg_id") = true
  ts : isRfc3339 host (e.get "ts") = true
  replyTo : (e.get "reply_to").isNone = true ∨ isUuidField (e.get "reply_to") = true
  sender : ∃ x, e.get "from" = some x ∧ x.isRecord = true ∧ checkFrom x = []
  receiver : ∃ x, e.get "to" = some x ∧ x.isRecord = true ∧ checkTo x = []
  trace : ∃ x, e.get "trace" = some x ∧ x.isRecord = true ∧ checkTrace x = []
  hops : checkHops e (isTaskType e) p = []
  task : checkTask e (isTaskType e) = []
  exp : checkExp host e (isTaskType e) = []
  sig : isTaskType e = true ∨ isRpcType e = true → SigOk host allowMissingSig e
  body : ∃ x, e.get "body" = some x ∧ x.isRecord = true
  numbers : e.safeNumbers = true

/-- **No complaint means every clause.** -/
theorem validateEnvelope_ok_iff {host : Host} {p : QlongParams} {allow : Bool} {e : Json} :
    validateEnvelope host p allow e = [] ↔ WellFormed host p allow e := by
  unfold validateEnvelope
  by_cases hrec : e.isRecord = true
  · rw [if_neg (by simp [hrec])]
    simp only [List.append_eq_nil_iff, check_eq_nil, checkRecord_eq_nil, assertNoFloats_eq_nil,
      Bool.or_eq_true, decide_eq_true_eq]
    have hsig : ((if isTaskType e = true ∨ isRpcType e = true then
        match e.get "sig" with
        | some sig =>
          if sig.isRecord then checkSig host sig
          else check allow "sig: task.*/rpc.* 必填 \x7balg, value\x7d(§3.3.1)"
        | none => check allow "sig: task.*/rpc.* 必填 \x7balg, value\x7d(§3.3.1)"
        else []) = []) ↔ (isTaskType e = true ∨ isRpcType e = true → SigOk host allow e) := by
      by_cases hfam : isTaskType e = true ∨ isRpcType e = true
      · rw [if_pos hfam]
        unfold SigOk
        cases e.get "sig" with
        | none => simp [hfam]
        | some sig => by_cases hs : sig.isRecord = true <;> simp [hfam, hs]
      · rw [if_neg hfam]
        simp [hfam]
    rw [hsig]
    constructor
    · rintro ⟨⟨⟨⟨⟨⟨⟨⟨⟨⟨⟨⟨⟨hv, hty⟩, hid⟩, hts⟩, hre⟩, hfrom⟩, hto⟩, htr⟩, hhops⟩, htask⟩, hexp⟩, hsg⟩, hbody⟩, hnum⟩
      exact ⟨hrec, hv, hty, hid, hts, hre, hfrom, hto, htr, hhops, htask, hexp, hsg,
        let ⟨x, hx, hr, _⟩ := hbody; ⟨x, hx, hr⟩, hnum⟩
    · rintro ⟨-, hv, hty, hid, hts, hre, hfrom, hto, htr, hhops, htask, hexp, hsg, ⟨x, hx, hr⟩, hnum⟩
      exact ⟨⟨⟨⟨⟨⟨⟨⟨⟨⟨⟨⟨⟨hv, hty⟩, hid⟩, hts⟩, hre⟩, hfrom⟩, hto⟩, htr⟩, hhops⟩, htask⟩, hexp⟩, hsg⟩,
        ⟨x, hx, hr, trivial⟩⟩, hnum⟩
  · rw [if_pos (by simp [hrec])]
    constructor
    · intro h
      exact absurd h (by simp)
    · intro h
      exact absurd h.record hrec

namespace WellFormed

variable {host : Host} {p : QlongParams} {allow : Bool} {e : Json}

/-- The ids of an envelope that passed are uuids. -/
theorem msgId_uuid (h : WellFormed host p allow e) : isUuid (Env.msgId e) = true := by
  obtain ⟨s, hs, hu⟩ := isUuidField_iff.mp h.msgId
  simpa [Env.msgId, Json.getStr, hs, Json.asStr] using hu

theorem fromNode_uuid (h : WellFormed host p allow e) : isUuid (Env.fromNode e) = true := by
  obtain ⟨x, hx, -, hc⟩ := h.sender
  simp only [checkFrom, List.append_eq_nil_iff, check_eq_nil] at hc
  obtain ⟨s, hs, hu⟩ := isUuidField_iff.mp hc.1.1.1
  simpa [Env.fromNode, Json.getStr, hx, hs, Json.asStr] using hu

theorem toNode_uuid (h : WellFormed host p allow e) : isUuid (Env.toNode e) = true := by
  obtain ⟨x, hx, -, hc⟩ := h.receiver
  simp only [checkTo, List.append_eq_nil_iff, check_eq_nil] at hc
  obtain ⟨s, hs, hu⟩ := isUuidField_iff.mp hc.1
  simpa [Env.toNode, Json.getStr, hx, hs, Json.asStr] using hu

/-- A task envelope that passed has a positive attempt. -/
theorem attempt_pos (h : WellFormed host p allow e) (ht : isTaskType e = true) :
    ∃ n, Env.attempt e = some n ∧ 0 < n ∧ n ≤ Json.maxSafe := by
  have hc := h.task
  simp only [checkTask, ht, if_true, List.append_eq_nil_iff, check_eq_nil] at hc
  obtain ⟨n, hn, hpos⟩ := Json.positive_iff.mp hc.2
  exact ⟨n, by simp [Env.attempt, Json.getNum, hn, Json.asNum], hpos⟩

end WellFormed

/-! ## The sealer -/

/-- `Outbound` of `packages/node/src/wire.ts`: what a state machine wants to send. -/
structure Outbound where
  type : String
  to_node : String
  task_id : Option String
  attempt : Option Int
  reply_to : Option String
  body : Json
deriving DecidableEq

/-- The registered identity of a node. -/
structure Identity where
  node_id : String
  team_id : String
  key_epoch : Int
deriving DecidableEq, Repr

/-- What one call of the sealer takes from the clock and the id generator. -/
structure Stamp where
  now : Int
  msg_id : String
  trace_id : String
deriving DecidableEq, Repr

/-- The envelope before it is signed. -/
def unsigned (host : Host) (me : Identity) (p : QlongParams) (stamp : Stamp) (out : Outbound) : Json :=
  .object
    [("v", some (.num 1)), ("type", some (.str out.type)), ("msg_id", some (.str stamp.msg_id)),
      ("ts", some (.str (host.toISOString stamp.now))),
      ("exp", some (.str (host.toISOString (stamp.now + p.expHorizonMs)))),
      ("from", some (.object [("node_id", some (.str me.node_id)), ("team_id", some (.str me.team_id)),
        ("key_epoch", some (.num me.key_epoch))])),
      ("to", some (.object [("node_id", some (.str out.to_node)), ("team_id", some (.str me.team_id))])),
      ("trace", some (.object [("trace_id", some (.str stamp.trace_id)), ("parent_span", some .null),
        ("origin_node", some (.str me.node_id))])),
      ("reply_to", out.reply_to.map .str),
      ("hops", out.task_id.map fun _ => .num 0),
      ("task_id", out.task_id.map .str),
      ("attempt", out.task_id.map fun _ => .num (out.attempt.getD 1)),
      ("body", some out.body)]

/-- `signEnvelope`. -/
def signEnvelope (host : Host) (e : Json) : Json :=
  e.set "sig" (.object [("alg", some (.str "ed25519")), ("value", some (.str (host.sign e)))])

/-- `seal` of `createDurableNode`: assemble, check, sign. A malformed message is thrown back at the caller. -/
def sealEnvelope (host : Host) (me : Identity) (p : QlongParams) (stamp : Stamp) (out : Outbound) :
    Except String Json :=
  match validateEnvelope host p true (unsigned host me p stamp out) with
  | [] => .ok (signEnvelope host (unsigned host me p stamp out))
  | errors => .error ("出站信封校验失败:" ++ ";".intercalate errors)

section Seal

variable {host : Host} {me : Identity} {p : QlongParams} {stamp : Stamp} {out : Outbound} {e : Json}

/-- Sealing goes through exactly where the unsigned envelope passes, and only signs it. -/
theorem sealEnvelope_ok_iff : sealEnvelope host me p stamp out = .ok e ↔
    WellFormed host p true (unsigned host me p stamp out) ∧
      e = signEnvelope host (unsigned host me p stamp out) := by
  rw [← validateEnvelope_ok_iff]
  unfold sealEnvelope
  cases hv : validateEnvelope host p true (unsigned host me p stamp out) with
  | nil => simp [eq_comm]
  | cons x xs => simp

/-- Signing adds the signature and touches nothing else. -/
theorem get_signEnvelope {name : String} (h : name ≠ "sig") :
    (signEnvelope host e).get name = e.get name := Json.get_set_other h

/-- What the seal of a message reads as. -/
theorem sealed_reads (h : sealEnvelope host me p stamp out = .ok e) :
    Env.type e = out.type ∧ Env.taskId e = out.task_id ∧
      Env.attempt e = out.task_id.map fun _ => out.attempt.getD 1 := by
  obtain ⟨-, rfl⟩ := sealEnvelope_ok_iff.mp h
  obtain ⟨type, to_node, task_id, attempt, reply_to, body⟩ := out
  refine ⟨?_, ?_, ?_⟩
  · rw [Env.type, Json.getStr, get_signEnvelope (by decide)]
    simp [unsigned, Json.get_object_cons, Json.asStr]
  · rw [Env.taskId, Json.getStr, get_signEnvelope (by decide)]
    cases task_id <;> simp [unsigned, Json.get_object_cons, Json.asStr]
  · rw [Env.attempt, Json.getNum, get_signEnvelope (by decide)]
    cases task_id <;> simp [unsigned, Json.get_object_cons, Json.asNum]

/-- The body is sealed as it was given. -/
theorem sealed_body (h : sealEnvelope host me p stamp out = .ok e) : Env.body e = out.body := by
  obtain ⟨-, rfl⟩ := sealEnvelope_ok_iff.mp h
  rw [Env.body, get_signEnvelope (by decide)]
  simp [unsigned, Json.get_object_cons]

end Seal

/-! ## A sample conversation

Two nodes of one team and a task, for evaluating the definitions on concrete envelopes. -/

namespace Sample

/-- The node that sends in the samples. -/
def nodeA : String := "aaaaaaaa-aaaa-4aaa-8aaa-aaaaaaaaaaaa"

/-- The node that is sent to. -/
def nodeB : String := "bbbbbbbb-bbbb-4bbb-8bbb-bbbbbbbbbbbb"

def task : String := "cccccccc-cccc-4ccc-8ccc-cccccccccccc"

/-- The message id that ends in `n`. -/
def msg (n : Nat) : String := "dddddddd-dddd-4ddd-8ddd-dddddddddd" ++ toString (10 + n)

theorem nodeA_uuid : isUuid nodeA = true := by decide

theorem nodeB_uuid : isUuid nodeB = true := by decide

/-- The limits and terms the samples run under. -/
theorem entries_ok : Json.isNonnegative 10000 = true := by decide

theorem bytes_ok : Json.isNonnegative (64 * 1024 * 1024) = true := by decide

theorem perNode_ok : Json.isPositive 1000 = true := by decide

theorem leaseAid_ok : Json.isPositive defaultParams.leaseMsAid = true := by decide

theorem leaseProject_ok : Json.isPositive defaultParams.leaseMsProject = true := by decide

theorem offerTtl_ok : Json.isPositive defaultParams.offerTtlMsAid = true := by decide

theorem team_ne : "team" ≠ "" := by decide

def identityA : Identity := ⟨nodeA, "team", 1⟩

def identityB : Identity := ⟨nodeB, "team", 1⟩

/-- Midnight, New Year's Day 2026, and one day later. -/
def calendar : List (String × Int) :=
  [("2026-01-01T00:00:00.000Z", 1767225600000), ("2026-01-02T00:00:00.000Z", 1767312000000)]

/-- The first midnight of 2026, in milliseconds. -/
def now : Int := 1767225600000

/-- The envelope `nodeA` seals for `nodeB` at midnight. -/
def envelope (n : Nat) (type : String) (attempt : Int) (body : Json) : Json :=
  let host := Host.ofTables [] calendar
  signEnvelope host (unsigned host identityA defaultParams ⟨now, msg n, task⟩
    ⟨type, nodeB, some task, some attempt, none, body⟩)

end Sample

end Qlong
