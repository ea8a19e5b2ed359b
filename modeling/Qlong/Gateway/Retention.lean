import Qlong.Gateway.Tickets

/-!
# The life of an entry in custody

One store over any calls at any clock readings: what becomes of each entry, and the three quotas. Then
the store reopened again and again under a clock that does not go back: what is left of a delivery
after its tombstone is gone is its expiry, and that is enough.
-/

namespace Qlong
namespace Gateway

open Lib

/-- The clock reading a call brings. -/
def CustodyCall.time : CustodyCall → Option Int
  | .offer _ now | .pending _ now _ | .acknowledge _ _ _ _ now | .prune now => some now
  | .outcome _ _ => none

namespace Custody

/-! ## One call -/

/-- How a pending entry may end. -/
inductive Released (call : CustodyCall) (row : CustodyRow) : CustodyRow → Prop
  | received {now : Int} (hcall : call = .acknowledge row.to_node row.from_node row.msg_id row.digest now)
      (hsoon : now < row.expires_at) : Released call row (finished .received row)
  | expired {now : Int} (htime : call.time = some now) (hlate : row.expires_at ≤ now) :
      Released call row (finished .expired row)

/-- What becomes of the entries over a call. -/
structure Lifecycle (cfg : CustodyConfig) (rows : List CustodyRow) (call : CustodyCall)
    (rows' : List CustodyRow) : Prop where
  /-- An entry that stays is as it was, or was pending and is released. -/
  kept : ∀ row ∈ rows, ∀ row' ∈ rows', row'.key = row.key → row' = row ∨ (row.status = .pending ∧ Released call row row')
  /-- An entry goes when it is pruned: not while it is pending, and not before its retention. -/
  gone : ∀ row ∈ rows, row.key ∉ rows'.map CustodyRow.key → row.status ≠ .pending ∧
    ∃ now retentionMs, call = .prune now ∧ cfg.retentionMs = some retentionMs ∧ row.stored_at ≤ now - retentionMs
  /-- An entry is new when its envelope is offered in time. -/
  fresh : ∀ row' ∈ rows', row'.key ∉ rows.map CustodyRow.key → ∃ e now encoded, call = .offer e now ∧
    encode cfg.host e = some encoded ∧ now < encoded.expires ∧ row' = admitted encoded now

section

variable {cfg : CustodyConfig} {rows rows' : List CustodyRow} {row row' : CustodyRow} {call : CustodyCall}

theorem Sound.unique (h : Sound cfg rows) (hrow : row ∈ rows) (hrow' : row' ∈ rows) (hkey : row'.key = row.key) :
    row' = row := List.inj_on_of_nodup_map h.keyed hrow' hrow hkey

theorem Released.key (h : Released call row row') : row'.key = row.key := by
  cases h with
  | received | expired => rfl

/-- Entries released here and there. -/
theorem Lifecycle.map (h : Sound cfg rows) {f : CustodyRow → CustodyRow}
    (hf : ∀ row ∈ rows, f row = row ∨ (row.status = .pending ∧ Released call row (f row))) :
    Lifecycle cfg rows call (rows.map f) := by
  have hkey : ∀ row ∈ rows, (f row).key = row.key := by
    intro row hrow
    rcases hf row hrow with hsame | ⟨-, hreleased⟩
    · rw [hsame]
    · exact hreleased.key
  refine ⟨?_, ?_, ?_⟩
  · intro row hrow row' hrow' hsame
    obtain ⟨old, hold, rfl⟩ := List.mem_map.mp hrow'
    obtain rfl := h.unique hrow hold ((hkey old hold).symm.trans hsame)
    exact hf old hold
  · intro row hrow hgone
    exact absurd (List.mem_map.mpr ⟨f row, List.mem_map_of_mem hrow, hkey row hrow⟩) hgone
  · intro row' hrow' hnew
    obtain ⟨old, hold, rfl⟩ := List.mem_map.mp hrow'
    exact absurd (List.mem_map.mpr ⟨old, hold, (hkey old hold).symm⟩) hnew

theorem Lifecycle.refl (h : Sound cfg rows) : Lifecycle cfg rows call rows := by
  have hmap := @Lifecycle.map cfg rows call h id fun _ _ => Or.inl rfl
  rwa [List.map_id] at hmap

theorem Lifecycle.expired (h : Sound cfg rows) {now : Int} (htime : call.time = some now) :
    Lifecycle cfg rows call (Custody.expired now rows) := by
  refine .map h fun row _ => ?_
  split
  · rename_i hdue
    simp only [isDue, Bool.and_eq_true, decide_eq_true_eq] at hdue
    exact Or.inr ⟨hdue.1, .expired htime hdue.2⟩
  · exact Or.inl rfl

theorem Lifecycle.finish (h : Sound cfg rows) (hrow : row ∈ rows) {status : CustodyStatus}
    (hstatus : row.status = .pending) (hreleased : Released call row (finished status row)) :
    Lifecycle cfg rows call (Custody.finish rows row status) := by
  refine .map h fun old hold => ?_
  split
  · rename_i hkey
    obtain rfl := h.unique hrow hold hkey
    exact Or.inr ⟨hstatus, hreleased⟩
  · exact Or.inl rfl

/-- One more entry, under a new key. -/
theorem Lifecycle.append (h : Lifecycle cfg rows call rows') {e : Json} {now : Int} {encoded : Encoded}
    (hcall : call = .offer e now) (hencode : encode cfg.host e = some encoded) (hlate : now < encoded.expires)
    (hnew : (admitted encoded now).key ∉ rows.map CustodyRow.key) :
    Lifecycle cfg rows call (rows' ++ [admitted encoded now]) := by
  refine ⟨?_, ?_, ?_⟩
  · intro row hrow row' hrow' hsame
    rcases List.mem_append.mp hrow' with hrow' | hrow'
    · exact h.kept row hrow row' hrow' hsame
    · rw [List.mem_singleton.mp hrow'] at hsame
      exact absurd (hsame ▸ List.mem_map_of_mem hrow) hnew
  · intro row hrow hgone
    refine h.gone row hrow fun hkept => hgone ?_
    rw [List.map_append]
    exact List.mem_append_left _ hkept
  · intro row' hrow' hfresh
    rcases List.mem_append.mp hrow' with hrow' | hrow'
    · exact h.fresh row' hrow' hfresh
    · exact ⟨e, now, encoded, hcall, hencode, hlate, List.mem_singleton.mp hrow'⟩

/-- Old tombstones dropped. -/
theorem Lifecycle.prune (h : Sound cfg rows) {now retentionMs : Int} (hcall : call = .prune now)
    (hretention : cfg.retentionMs = some retentionMs) :
    Lifecycle cfg rows call (rows.filter fun row => !isOld (now - retentionMs) row) := by
  refine ⟨?_, ?_, ?_⟩
  · intro row hrow row' hrow' hsame
    exact Or.inl (h.unique hrow (List.mem_filter.mp hrow').1 hsame)
  · intro row hrow hgone
    have hold : isOld (now - retentionMs) row = true := by
      by_contra hyoung
      refine hgone (List.mem_map_of_mem (List.mem_filter.mpr ⟨hrow, ?_⟩))
      rw [Bool.not_eq_true] at hyoung
      rw [hyoung, Bool.not_false]
    simp only [isOld, ne_eq, Bool.and_eq_true, decide_eq_true_eq] at hold
    exact ⟨hold.1, now, retentionMs, hcall, hretention, hold.2⟩
  · intro row' hrow' hfresh
    exact absurd (List.mem_map_of_mem (List.mem_filter.mp hrow').1) hfresh

/-- **What a call makes of the entries.** -/
theorem Sound.lifecycle (h : Sound cfg rows) (call : CustodyCall) :
    Lifecycle cfg rows call (Custody.perform cfg rows call) := by
  have hperforms := @perform_performs cfg rows call
  generalize Custody.perform cfg rows call = rows' at hperforms ⊢
  cases hperforms with
  | unchanged => exact .refl h
  | offered hoffers =>
    cases hoffers with
    | refused | known => exact .refl h
    | full => exact .expired h rfl
    | @admits encoded hencode _ hnew hlate _ _ =>
      -- the sweep of what has expired comes before the insert
      refine (Lifecycle.expired h rfl).append rfl hencode hlate fun hmem => ?_
      obtain ⟨-, expires, -, rfl⟩ := encode_eq.mp hencode
      obtain ⟨row, hrow, hkey⟩ := List.mem_map.mp hmem
      exact Table.lookup_none_iff.mp hnew row hrow hkey
  | swept => exact .expired h rfl
  | acknowledged hacknowledges =>
    cases hacknowledges with
    | refused | already => exact .refl h
    | late hrow hkey hstatus hlate => exact .finish h hrow hstatus (.expired rfl hlate)
    | releases hrow hkey hto hdigest hstatus hsoon =>
      refine .finish h hrow hstatus (.received ?_ hsoon)
      rw [CustodyRow.key, Prod.mk.injEq] at hkey
      rw [hto, hkey.1, hkey.2, hdigest]
  | pruned hretention => exact .prune h rfl hretention

/-! ## The quotas -/

/-- The bytes of the pending payloads. -/
def pendingBytes (rows : List CustodyRow) : Int := totalBytes (rows.filter (·.status = .pending))

/-- The three limits. -/
structure Within (cfg : CustodyConfig) (rows : List CustodyRow) : Prop where
  entries : (rows.length : Int) ≤ cfg.maxEntries
  bytes : pendingBytes rows ≤ cfg.maxBytes
  recipients : ∀ toNode, ((rows.filter (isFor toNode)).length : Int) ≤ cfg.perNodeEntries

theorem totalBytes_cons : totalBytes (row :: rows) = row.payload_bytes + totalBytes rows := by
  rw [totalBytes, List.map_cons, List.sum_cons]
  rfl

theorem totalBytes_append : totalBytes (rows ++ [row]) = totalBytes rows + row.payload_bytes := by
  simp [totalBytes]

theorem totalBytes_nonneg : 0 ≤ totalBytes rows := by
  induction rows with
  | nil => exact le_refl 0
  | cons row rows ih =>
    rw [totalBytes_cons]
    omega

/-- What is not pending has no bytes. -/
theorem totalBytes_pending (h : ∀ row ∈ rows, row.status ≠ .pending → row.payload_bytes = 0) :
    totalBytes rows = pendingBytes rows := by
  unfold pendingBytes
  induction rows with
  | nil => rfl
  | cons row rows ih =>
    have hrest := ih fun row' hrow' => h row' (List.mem_cons_of_mem _ hrow')
    rw [totalBytes_cons, hrest, List.filter_cons]
    split
    · rw [totalBytes_cons]
    · rename_i hstatus
      have hzero := h row List.mem_cons_self fun hpending => hstatus (by rw [hpending]; rfl)
      rw [hzero]
      omega

theorem totalBytes_filter (p : CustodyRow → Bool) : totalBytes (rows.filter p) ≤ totalBytes rows := by
  induction rows with
  | nil => exact le_refl 0
  | cons row rows ih =>
    rw [List.filter_cons]
    split
    · rw [totalBytes_cons, totalBytes_cons]
      omega
    · rw [totalBytes_cons]
      omega

theorem Sound.released (h : Sound cfg rows) (hrow : row ∈ rows) (hstatus : row.status ≠ .pending) :
    row.payload = none ∧ row.payload_bytes = 0 := by
  obtain ⟨r, hr⟩ := h.loads row hrow
  obtain ⟨-, ⟨-, hpayload, hbytes, -⟩ | ⟨hpending, -⟩⟩ := load_ok.mp hr
  · exact ⟨hpayload, hbytes⟩
  · exact absurd hpending hstatus

theorem Sound.totalBytes (h : Sound cfg rows) : Custody.totalBytes rows = pendingBytes rows :=
  totalBytes_pending fun _ hrow hstatus => (h.released hrow hstatus).2

theorem totalBytes_map {f : CustodyRow → CustodyRow}
    (hf : ∀ row, f row = row ∨ ∃ status, status ≠ .pending ∧ f row = finished status row) :
    totalBytes (rows.map f) ≤ totalBytes rows := by
  induction rows with
  | nil => exact le_refl 0
  | cons row rows ih =>
    rw [List.map_cons, totalBytes_cons, totalBytes_cons]
    rcases hf row with hsame | ⟨status, -, hfinished⟩
    · rw [hsame]
      omega
    · rw [hfinished]
      simp only [finished]
      omega

theorem Within.map (h : Within cfg rows) (hs : Sound cfg rows) {f : CustodyRow → CustodyRow}
    (hf : ∀ row, f row = row ∨ ∃ status, status ≠ .pending ∧ f row = finished status row) :
    Within cfg (rows.map f) := by
  have hrecipients : ∀ toNode row, isFor toNode (f row) = true → isFor toNode row = true := by
    intro toNode row hfor
    rcases hf row with hsame | ⟨status, hstatus, hfinished⟩
    · rwa [hsame] at hfor
    · rw [hfinished] at hfor
      simp only [isFor, finished, Bool.and_eq_true] at hfor
      exact absurd (of_decide_eq_true hfor.2) hstatus
  refine ⟨?_, ?_, fun toNode => ?_⟩
  · rw [List.length_map]
    exact h.entries
  · rw [← (hs.map hf).totalBytes]
    exact (totalBytes_map hf).trans (hs.totalBytes.le.trans h.bytes)
  · rw [List.filter_map, List.length_map]
    have hle := (List.monotone_filter_right rows (p := isFor toNode ∘ f) (q := isFor toNode)
      (hrecipients toNode)).length_le
    exact (Int.ofNat_le.mpr hle).trans (h.recipients toNode)

theorem Within.expired (h : Within cfg rows) (hs : Sound cfg rows) (now : Int) :
    Within cfg (Custody.expired now rows) := by
  refine h.map hs fun row => ?_
  split
  · exact Or.inr ⟨.expired, by simp, rfl⟩
  · exact Or.inl rfl

theorem Within.finish (h : Within cfg rows) (hs : Sound cfg rows) {status : CustodyStatus} (hstatus : status ≠ .pending) :
    Within cfg (Custody.finish rows row status) := by
  refine h.map hs fun old => ?_
  split
  · exact Or.inr ⟨status, hstatus, rfl⟩
  · exact Or.inl rfl

theorem Within.filter (h : Within cfg rows) (p : CustodyRow → Bool) : Within cfg (rows.filter p) := by
  refine ⟨?_, ?_, fun toNode => ?_⟩
  · exact (Int.ofNat_le.mpr (List.length_filter_le p rows)).trans h.entries
  · refine le_trans ?_ h.bytes
    unfold pendingBytes
    rw [List.filter_comm]
    exact totalBytes_filter p
  · refine le_trans (Int.ofNat_le.mpr ?_) (h.recipients toNode)
    rw [List.filter_comm]
    exact List.length_filter_le p _

theorem Within.append (h : Within cfg rows) (hs : Sound cfg rows) {encoded : Encoded} {now : Int}
    (hfits : Fits cfg rows encoded) : Within cfg (rows ++ [admitted encoded now]) := by
  have hpending : (admitted encoded now).status = .pending := rfl
  refine ⟨?_, ?_, fun toNode => ?_⟩
  · have hentries := hfits.entries
    rw [List.length_append, List.length_singleton]
    omega
  · rw [pendingBytes, List.filter_append, List.filter_cons, List.filter_nil, if_pos (decide_eq_true hpending),
      totalBytes_append]
    have hbytes := hfits.bytes
    rw [hs.totalBytes] at hbytes
    exact hbytes
  · rw [List.filter_append, List.length_append, List.filter_cons, List.filter_nil]
    split
    · rename_i hfor
      simp only [isFor, hpending, decide_true, Bool.and_true, decide_eq_true_eq] at hfor
      have hrecipient := hfits.recipient
      have hto : Env.toNode encoded.envelope = toNode := hfor
      rw [hto] at hrecipient
      rw [List.length_singleton]
      omega
    · rw [List.length_nil]
      exact h.recipients toNode

/-- **Every call keeps within the limits.** -/
theorem Within.perform (h : Within cfg rows) (hs : Sound cfg rows) (call : CustodyCall) :
    Within cfg (Custody.perform cfg rows call) := by
  have hperforms := @perform_performs cfg rows call
  generalize Custody.perform cfg rows call = rows' at hperforms ⊢
  cases hperforms with
  | unchanged => exact h
  | @offered _ now _ _ hoffers =>
    cases hoffers with
    | refused | known => exact h
    | full => exact h.expired hs now
    | admits _ _ _ _ _ hfits => exact (h.expired hs now).append (hs.expired now) hfits
  | @swept _ now _ => exact h.expired hs now
  | acknowledged hacknowledges =>
    cases hacknowledges with
    | refused | already => exact h
    | late => exact h.finish hs (by simp)
    | releases => exact h.finish hs (by simp)
  | pruned hretention => exact h.filter _

/-! ## Offers to a sound table -/

theorem Sound.find (h : Sound cfg rows) (fromNode msgId : String) :
    Custody.find cfg rows fromNode msgId = .ok (Table.lookup CustodyRow.key (fromNode, msgId) rows) := by
  unfold Custody.find
  cases hlookup : Table.lookup CustodyRow.key (fromNode, msgId) rows with
  | none => rfl
  | some row =>
    obtain ⟨r, hr⟩ := h.loads row (Table.lookup_some_mem hlookup)
    dsimp only
    rw [hr]
    rfl

/-- An identity that is there decides the offer by its digest, and stays as it is. -/
theorem Sound.offer_known (h : Sound cfg rows) {e : Json} {encoded : Encoded} {now : Int}
    (hencode : encode cfg.host e = some encoded) (hnow : validTime now = true) (hrow : row ∈ rows)
    (hkey : row.key = (Env.fromNode e, Env.msgId e)) :
    offer cfg rows e now = .ok (if row.digest = encoded.digest then .stored else .conflict, rows) := by
  obtain ⟨-, expires, -, rfl⟩ := encode_eq.mp hencode
  have hlookup : Table.lookup CustodyRow.key (Env.fromNode e, Env.msgId e) rows = some row :=
    (Table.lookup_iff_mem h.keyed).mpr ⟨hrow, hkey⟩
  unfold offer
  rw [hencode]
  dsimp only
  rw [if_pos hnow, offerInTransaction, h.find, hlookup]
  rfl

/-- The limits can be counted exactly, so a table within them is never refused as damaged. -/
theorem Within.countable (h : Within cfg rows) (hs : Sound cfg rows) (toNode : String) :
    (Json.isSafe rows.length && Json.isSafe (totalBytes rows) &&
      Json.isSafe ((rows.filter (isFor toNode)).length : Int)) = true := by
  obtain ⟨-, hmaxEntries⟩ := Json.isPositive_iff.mp cfg.maxEntries_ok
  obtain ⟨-, hmaxBytes⟩ := Json.isPositive_iff.mp cfg.maxBytes_ok
  obtain ⟨-, hperNode⟩ := Json.isPositive_iff.mp cfg.perNodeEntries_ok
  have hbytes : totalBytes rows ≤ cfg.maxBytes := hs.totalBytes.le.trans h.bytes
  have hnonneg : 0 ≤ totalBytes rows := totalBytes_nonneg
  have hentries := h.entries
  have hrecipient := h.recipients toNode
  simp only [Json.maxSafe] at hmaxEntries hmaxBytes hperNode
  simp only [Bool.and_eq_true, Json.isSafe_iff, Json.maxSafe]
  exact ⟨⟨⟨by omega, by omega⟩, by omega, by omega⟩, by omega, by omega⟩

open scoped Classical in
/-- **A new identity in time is stored when it fits and refused when not; either way only what is due is released.** -/
theorem Within.offer_new (h : Within cfg rows) (hs : Sound cfg rows) {e : Json} {encoded : Encoded} {now : Int}
    (hencode : encode cfg.host e = some encoded) (hnow : validTime now = true)
    (hnew : (Env.fromNode e, Env.msgId e) ∉ rows.map CustodyRow.key) (hlate : now < encoded.expires)
    (hsoon : encoded.expires - now ≤ maxTransportLifetimeMs) :
    offer cfg rows e now = .ok (if Fits cfg (Custody.expired now rows) encoded
      then (.stored, Custody.expired now rows ++ [admitted encoded now]) else (.full, Custody.expired now rows)) := by
  have henvelope : encoded.envelope = e := by
    obtain ⟨-, expires, -, rfl⟩ := encode_eq.mp hencode
    rfl
  have hlookup : Table.lookup CustodyRow.key (Env.fromNode e, Env.msgId e) rows = none :=
    Table.lookup_none_iff.mpr fun row hrow hkey => hnew (hkey ▸ List.mem_map_of_mem hrow)
  have hcountable := (h.expired hs now).countable (hs.expired now) (Env.toNode e)
  unfold offer
  rw [hencode]
  dsimp only
  rw [if_pos hnow, offerInTransaction, henvelope, hs.find, hlookup]
  change (if encoded.expires ≤ now then _ else _) = _
  rw [if_neg (not_le.mpr hlate), if_neg (not_lt.mpr hsoon), hs.expire]
  change (do requireValid _; _) = _
  rw [hcountable]
  change (if _ then _ else _) = _
  by_cases hfits : Fits cfg (Custody.expired now rows) encoded
  · rw [if_pos hfits, if_neg]
    · rfl
    · have hentries := hfits.entries
      have hbytes := hfits.bytes
      have hrecipient := hfits.recipient
      rw [henvelope] at hrecipient
      omega
  · rw [if_neg hfits, if_pos]
    · rfl
    · by_contra hroom
      rw [not_or, not_or] at hroom
      obtain ⟨hentries, hbytes, hrecipient⟩ := hroom
      exact hfits ⟨by omega, by omega, by rw [henvelope]; omega⟩

end

/-- The constructor reads every row. -/
def opens (cfg : CustodyConfig) (rows : List CustodyRow) : Except CustodyError PUnit :=
  rows.forM fun row => do
    let _ ← load cfg.host row

end Custody

/-! ## Runs of one store -/

/-- A store on a sound table within its limits, such as the empty one. -/
def custodySystem (cfg : CustodyConfig) : System (List CustodyRow) CustodyCall where
  init rows := Custody.Sound cfg rows ∧ Custody.Within cfg rows
  step rows call rows' := rows' = Custody.perform cfg rows call

section

variable {cfg : CustodyConfig} {hist : List (Entry (List CustodyRow) CustodyCall)} {rows : List CustodyRow}

theorem run_within (run : Run (custodySystem cfg) hist rows) : Custody.Sound cfg rows ∧ Custody.Within cfg rows := by
  refine run.invariant (I := fun rows => Custody.Sound cfg rows ∧ Custody.Within cfg rows) (fun _ h => h) ?_
  intro x _ hstep ⟨hs, hw⟩
  rw [show x.post = _ from hstep]
  exact ⟨hs.perform x.label, hw.perform hs x.label⟩

/-- **The life of an entry in custody.** Whatever the calls and the clock: an entry is released at most
    once, by its receipt in time or by its expiry, and otherwise stays as it is until it is pruned; a
    payload is there while its entry is pending; the limits are kept; an identity that is there decides
    an offer; and a full store refuses and evicts nothing. -/
theorem custody_lifecycle (run : Run (custodySystem cfg) hist rows) :
    (∀ x ∈ hist, Custody.Lifecycle cfg x.pre x.label x.post) ∧
    (∀ row ∈ rows, (row.status = .pending ∧ ∃ e, Custody.Holds cfg.host row e) ∨
      (row.status ≠ .pending ∧ row.payload = none ∧ row.payload_bytes = 0)) ∧
    Custody.Within cfg rows ∧
    ∀ e encoded now, Custody.encode cfg.host e = some encoded → validTime now = true →
      (∀ row ∈ rows, row.key = (Env.fromNode e, Env.msgId e) →
        Custody.offer cfg rows e now = .ok (if row.digest = encoded.digest then .stored else .conflict, rows)) ∧
      ((Env.fromNode e, Env.msgId e) ∉ rows.map CustodyRow.key → now < encoded.expires →
        encoded.expires - now ≤ maxTransportLifetimeMs → ¬ Custody.Fits cfg (Custody.expired now rows) encoded →
        Custody.offer cfg rows e now = .ok (.full, Custody.expired now rows)) := by
  obtain ⟨hs, hw⟩ := run_within run
  refine ⟨?_, ?_, hw, ?_⟩
  · have hsound := run.invariant_mem (I := fun rows => Custody.Sound cfg rows) (fun _ h => h.1) fun x _ hstep hs => by
      rw [show x.post = _ from hstep]
      exact hs.perform x.label
    intro x hx
    rw [show x.post = _ from run.step_of_mem x hx]
    exact (hsound x hx).1.lifecycle x.label
  · intro row hrow
    by_cases hstatus : row.status = .pending
    · exact Or.inl ⟨hstatus, hs.pending hrow hstatus⟩
    · exact Or.inr ⟨hstatus, hs.released hrow hstatus⟩
  · intro e encoded now hencode hnow
    refine ⟨fun row hrow hkey => hs.offer_known hencode hnow hrow hkey, fun hnew hlate hsoon hfits => ?_⟩
    rw [hw.offer_new hs hencode hnow hnew hlate hsoon, if_neg hfits]

end

open Receipted in
/-- The first offer of an envelope is stored, and the second finds it. -/
theorem custody_lifecycle_offered : Custody.offer config.custody
    (Custody.perform config.custody [] (.offer envelope Sample.now)) envelope Sample.now =
      .ok (.stored, Custody.perform config.custody [] (.offer envelope Sample.now)) := by
  have run : Run (custodySystem config.custody) _ (Custody.perform config.custody [] (.offer envelope Sample.now)) :=
    .next (.start ⟨.empty, by decide, by decide, fun _ => Int.natCast_nonneg 1000⟩) rfl
  obtain ⟨encoded, hencode⟩ : ∃ encoded, Custody.encode config.custody.host envelope = some encoded :=
    Option.isSome_iff_exists.mp (by decide +kernel)
  obtain ⟨row, hrow, hkey, hdigest⟩ : ∃ row ∈ Custody.perform config.custody [] (.offer envelope Sample.now),
      row.key = (Env.fromNode envelope, Env.msgId envelope) ∧ row.digest = config.custody.host.digest envelope := by
    decide +kernel
  have hknown := ((custody_lifecycle run).2.2.2 envelope encoded Sample.now hencode (by decide)).1 row hrow hkey
  obtain ⟨-, expires, -, rfl⟩ := Custody.encode_eq.mp hencode
  rwa [if_pos hdigest] at hknown

/-! ## Runs of a store that is reopened -/

/-- The table, the store that is open on it, and the last clock reading. -/
structure CustodyWorld where
  store : CustodyConfig
  rows : List CustodyRow
  clock : Int

/-- The world after a call. -/
def CustodyWorld.after (w : CustodyWorld) (call : CustodyCall) : CustodyWorld :=
  { w with rows := Custody.perform w.store w.rows call, clock := call.time.getD w.clock }

inductive RetentionLabel where
  | call (call : CustodyCall)
  | reopen (store : CustodyConfig)

/-- The retention is off, or as long as an envelope may live. -/
def CustodyConfig.Retains (cfg : CustodyConfig) : Prop :=
  ∀ retentionMs, cfg.retentionMs = some retentionMs → maxTransportLifetimeMs ≤ retentionMs

/-- Calls under a clock that does not go back, and stores opened one after another on the same table. -/
def retentionSystem (host : Host) : System CustodyWorld RetentionLabel where
  init w := w.store.host = host ∧ w.store.Retains ∧ Custody.Sound w.store w.rows
  step w l w' :=
    match l with
    | .call call => w.clock ≤ call.time.getD w.clock ∧ w' = w.after call
    | .reopen store =>
      store.host = host ∧ store.Retains ∧ Custody.opens store w.rows = .ok ⟨⟩ ∧ w' = { w with store }

/-- What every world of a run satisfies. -/
structure CustodyWorld.Steady (host : Host) (w : CustodyWorld) : Prop where
  host_eq : w.store.host = host
  retains : w.store.Retains
  sound : Custody.Sound w.store w.rows

/-- The row is the one of the envelope. -/
structure CustodyRow.IsOf (host : Host) (e : Json) (row : CustodyRow) : Prop where
  key : row.key = (Env.fromNode e, Env.msgId e)
  digest : row.digest = host.digest e
  expires : absoluteTime host (e.get "exp") = some row.expires_at

theorem Custody.Holds.isOf {host : Host} {row : CustodyRow} {e : Json} (h : Holds host row e) : row.IsOf host e := by
  obtain ⟨-, expires, hexpires, heq⟩ := Custody.encode_eq.mp h.encodes
  rw [Encoded.mk.injEq] at heq
  refine ⟨?_, heq.2.2.1, ?_⟩
  · rw [CustodyRow.key, h.sender, h.msgId]
  · rw [hexpires, heq.2.2.2]

/-- The envelope is no longer in custody and does not come back: its tombstone is there, or its time is over. -/
inductive Buried (host : Host) (e : Json) (w : CustodyWorld) : Prop
  | tombstone {row : CustodyRow} (hrow : row ∈ w.rows) (hof : row.IsOf host e) (hstatus : row.status ≠ .pending)
  | late {expires : Int} (hexpires : absoluteTime host (e.get "exp") = some expires) (hlate : expires ≤ w.clock)
      (habsent : ∀ row ∈ w.rows, row.payload ≠ some e)

section

variable {host : Host} {e : Json} {w w' : CustodyWorld} {l : RetentionLabel}

theorem CustodyWorld.Steady.step (h : w.Steady host) (hstep : (retentionSystem host).step w l w') : w'.Steady host := by
  cases l with
  | call call =>
    obtain ⟨-, rfl⟩ := hstep
    exact ⟨h.host_eq, h.retains, h.sound.perform call⟩
  | reopen store =>
    obtain ⟨hhost, hretains, -, rfl⟩ := hstep
    refine ⟨hhost, hretains, h.sound.keyed, fun row hrow => ?_⟩
    -- the store is another one, but what it reads the rows with is not
    obtain ⟨r, hr⟩ := h.sound.loads row hrow
    rw [h.host_eq] at hr
    exact ⟨r, hhost ▸ hr⟩

/-- What is buried is not pending. -/
theorem Buried.absent (h : Buried host e w) (hs : w.Steady host) : ∀ row ∈ w.rows, row.payload ≠ some e := by
  cases h with
  | late _ _ habsent => exact habsent
  | @tombstone tomb htomb hof hstatus =>
    intro row hrow hpayload
    by_cases hpending : row.status = .pending
    · obtain ⟨e', he'⟩ := hs.sound.pending hrow hpending
      obtain rfl : e' = e := Option.some.inj (he'.payload.symm.trans hpayload)
      rw [hs.host_eq] at he'
      have hsame := hs.sound.unique htomb hrow (he'.isOf.key.trans hof.key.symm)
      exact hstatus (hsame ▸ hpending)
    · rw [(hs.sound.released hrow hpending).1] at hpayload
      exact absurd hpayload (by simp)

/-- **A buried envelope stays buried.** A tombstone is only pruned once the envelope has expired, and an
    expired envelope is not taken. -/
theorem Buried.step (h : Buried host e w) (hs : w.Steady host) (hstep : (retentionSystem host).step w l w') :
    Buried host e w' := by
  cases l with
  | reopen store =>
    obtain ⟨-, -, -, rfl⟩ := hstep
    cases h with
    | tombstone hrow hof hstatus => exact .tombstone hrow hof hstatus
    | late hexpires hlate habsent => exact .late hexpires hlate habsent
  | call call =>
    obtain ⟨hclock, rfl⟩ := hstep
    have hlife := hs.sound.lifecycle call
    -- no call brings the envelope back while it is absent and its time is over
    have habsent' : ∀ expires, absoluteTime host (e.get "exp") = some expires → expires ≤ call.time.getD w.clock →
        ∀ row' ∈ Custody.perform w.store w.rows call, row'.payload ≠ some e := by
      intro expires hexpires hlate row' hrow' hpayload
      by_cases hold : row'.key ∈ w.rows.map CustodyRow.key
      · obtain ⟨row, hrow, hkey⟩ := List.mem_map.mp hold
        rcases hlife.kept row hrow row' hrow' hkey.symm with rfl | ⟨-, hreleased⟩
        · exact h.absent hs row' hrow hpayload
        · cases hreleased with
          | received | expired => exact absurd hpayload (by simp [Custody.finished])
      · obtain ⟨e', now, encoded, rfl, hencode, hsoon, rfl⟩ := hlife.fresh row' hrow' hold
        obtain ⟨-, expires', hexpires', rfl⟩ := Custody.encode_eq.mp hencode
        obtain rfl : e' = e := Option.some.inj hpayload
        rw [hs.host_eq, hexpires] at hexpires'
        obtain rfl := Option.some.inj hexpires'
        exact absurd hlate (not_le.mpr hsoon)
    cases h with
    | late hexpires hlate _ => exact .late hexpires (hlate.trans hclock) (habsent' _ hexpires (hlate.trans hclock))
    | @tombstone tomb htomb hof hstatus =>
      by_cases hkept : tomb.key ∈ (Custody.perform w.store w.rows call).map CustodyRow.key
      · obtain ⟨row', hrow', hkey⟩ := List.mem_map.mp hkept
        rcases hlife.kept tomb htomb row' hrow' hkey with rfl | ⟨hpending, -⟩
        · exact .tombstone hrow' hof hstatus
        · exact absurd hpending hstatus
      · obtain ⟨-, now, retentionMs, rfl, hretention, hold⟩ := hlife.gone tomb htomb hkept
        obtain ⟨r, hr⟩ := hs.sound.loads tomb htomb
        have hrow := (Custody.load_ok.mp hr).1
        simp only [Custody.isRow, Bool.and_eq_true, decide_eq_true_eq] at hrow
        have hretains := hs.retains retentionMs hretention
        have hlate : tomb.expires_at ≤ now := by omega
        exact .late hof.expires hlate (habsent' _ hof.expires hlate)

/-- The store has taken a receipt for the envelope. -/
def Receipts (host : Host) (e : Json) (x : Entry CustodyWorld RetentionLabel) : Prop :=
  ∃ toNode fromNode msgId digest now, x.label = .call (.acknowledge toNode fromNode msgId digest now) ∧
    Custody.acknowledge x.pre.store x.pre.rows toNode fromNode msgId digest now = .ok (true, x.post.rows) ∧
    ∃ row ∈ x.pre.rows, row.key = (fromNode, msgId) ∧ row.IsOf host e

/-- A receipt buries its envelope. -/
theorem Receipts.buried {x : Entry CustodyWorld RetentionLabel} (h : Receipts host e x) (hs : x.pre.Steady host) :
    Buried host e x.post := by
  obtain ⟨toNode, fromNode, msgId, digest, now, -, hack, row, hrow, hkey, hof⟩ := h
  generalize hpost : x.post.rows = rows' at hack
  cases Custody.acknowledge_ok hack with
  | @already old hold hkey' hstatus =>
    obtain rfl := hs.sound.unique hrow hold (hkey'.trans hkey.symm)
    exact .tombstone (hpost ▸ hold) hof (by rw [hstatus]; simp)
  | @releases old hold hkey' _ _ hstatus _ =>
    obtain rfl := hs.sound.unique hrow hold (hkey'.trans hkey.symm)
    have htomb : Custody.finished .received old ∈ Custody.finish x.pre.rows old .received :=
      Table.mem_modify.mpr ⟨old, hold, if_pos rfl⟩
    rw [← hpost] at htomb
    exact .tombstone htomb ⟨hof.key, hof.digest, hof.expires⟩ (by simp [Custody.finished])

variable {hist newer older : List (Entry CustodyWorld RetentionLabel)} {x : Entry CustodyWorld RetentionLabel}

theorem run_steady (run : Run (retentionSystem host) hist w) : w.Steady host :=
  run.invariant (fun _ h => ⟨h.1, h.2.1, h.2.2⟩) fun _ _ hstep hs => hs.step hstep

/-- **A delivered message does not come back.** However the store is called and reopened after a receipt
    for the envelope, as long as the clock does not go back and the retention is off or covers the longest
    lifetime, the envelope is never pending again; and whatever the retention, what is pending is not pruned. -/
theorem never_resurrected (run : Run (retentionSystem host) (newer ++ x :: older) w) (hreceipts : Receipts host e x) :
    (∀ row ∈ w.rows, row.payload ≠ some e) ∧
    ∀ {cfg : CustodyConfig} {rows rows' : List CustodyRow} {now : Int} {n : Nat},
      Custody.prune cfg rows now = .ok (n, rows') → ∀ row ∈ rows, row.status = .pending → row ∈ rows' := by
  have hburied : Buried host e w := by
    refine run.since (hreceipts.buried (run_steady run.before)) ?_
    rintro y - ⟨past, hpast⟩ hstep h
    exact h.step (run_steady hpast) hstep
  refine ⟨hburied.absent (run_steady run), ?_⟩
  intro cfg rows rows' now n hprune row hrow hpending
  rcases Custody.prune_ok hprune with rfl | ⟨retentionMs, -, rfl⟩
  · exact hrow
  · refine List.mem_filter.mpr ⟨hrow, ?_⟩
    rw [Custody.isOld, hpending]
    rfl

end

namespace Delivered

open Receipted

def empty : CustodyWorld := ⟨config.custody, [], Sample.now⟩

def offered : CustodyWorld := empty.after (.offer envelope Sample.now)

def receipt : CustodyCall :=
  .acknowledge Sample.nodeB Sample.nodeA (Sample.msg 1) (config.custody.host.digest envelope) (Sample.now + 1000)

def received : CustodyWorld := offered.after receipt

def offeredAgain : CustodyWorld := received.after (.offer envelope (Sample.now + 2000))

theorem run_call {host : Host} {hist : List (Entry CustodyWorld RetentionLabel)} {w : CustodyWorld} {call : CustodyCall}
    (run : Run (retentionSystem host) hist w) (hclock : w.clock ≤ call.time.getD w.clock) :
    Run (retentionSystem host) (⟨w, .call call, w.after call⟩ :: hist) (w.after call) := .next run ⟨hclock, rfl⟩

end Delivered

open Delivered Receipted in
/-- An envelope offered again after its receipt finds the tombstone. -/
theorem never_resurrected_offered : offeredAgain.rows ≠ [] ∧ ∀ row ∈ offeredAgain.rows, row.payload ≠ some envelope := by
  have hstart : Run (retentionSystem config.custody.host) [] empty := by
    refine .start ⟨rfl, fun retentionMs h => ?_, .empty⟩
    exact absurd h (by simp [config, empty])
  have hoffered : Run _ _ offered := run_call hstart (le_refl _)
  have hreceived : Run _ _ received := run_call hoffered (by decide)
  have hagain : Run _ _ offeredAgain := run_call hreceived (by decide)
  have hreceipts : Receipts config.custody.host envelope ⟨offered, .call receipt, received⟩ := by
    refine ⟨_, _, _, _, _, rfl, by decide +kernel, ?_⟩
    obtain ⟨row, hrow, hkey, hdigest, hexpires⟩ : ∃ row ∈ offered.rows, row.key = (Sample.nodeA, Sample.msg 1) ∧
        row.digest = config.custody.host.digest envelope ∧
        absoluteTime config.custody.host (envelope.get "exp") = some row.expires_at := by decide +kernel
    exact ⟨row, hrow, hkey, hkey.trans (by decide +kernel), hdigest, hexpires⟩
  exact ⟨by decide +kernel, (@never_resurrected _ _ _ [_] _ _ hagain hreceipts).1⟩

end Gateway
end Qlong
