import Qlong.Remote.Session

/-!
# Who keeps whom from being heard

The dedup of a session looks an envelope up by its task, attempt and type, whoever sent it, and it comes before
the machines ask who did. An envelope of a node that is neither the target of the lead's task nor the lead of the
executor's can thus be first, and then the peer's own envelope counts as its duplicate.

**`peers_undisturbed`**: such envelopes can be deleted from a run without a change to what is heard of the peers
exactly when none of them is ahead of a peer's envelope of its key within the retention, unless the key was taken
before by an envelope that is not to be deleted.

What an envelope meets besides the dedup is the same in both runs: the session's `doors`.
-/

namespace Qlong
namespace Remote

open Lib Lead Dedup Lib.Arrival

namespace Session

/-! ## The doors -/

/-- What decides, the dedup aside, which machine an envelope reaches. -/
structure Doors where
  nodeId : String
  teamId : String
  maxOffersPerMinPerSource : Int
  acceptRemotePaused : Bool
  offersBySource : List (String × List Int)
  hasLead : Bool
deriving DecidableEq

def doors (s : Session) : Doors :=
  ⟨s.nodeId, s.teamId, s.maxOffersPerMinPerSource, s.acceptRemotePaused, s.offersBySource, s.lead.isSome⟩

/-- Neither the doors nor the dedup have changed. -/
structure Frame (s s' : Session) : Prop where
  doors : s'.doors = s.doors
  dedup : s'.dedup = s.dedup

section

variable {host : Host} {moment : Moment} {s s' s'' : Session} {env : Json} {i : Input} {now : Int}
  {taskId target : String} {actions : List LeadAction} {r : LeadTaskMachine × List LeadAction}

theorem Frame.refl : Frame s s := ⟨rfl, rfl⟩

theorem Frame.trans (h : Frame s s') (h' : Frame s' s'') : Frame s s'' :=
  ⟨h'.doors.trans h.doors, h'.dedup.trans h.dedup⟩

theorem redispatchLead_frame : Frame s (s.redispatchLead now taskId target).1 := by
  unfold redispatchLead
  split
  · rename_i hlead
    refine ⟨?_, rfl⟩
    unfold Session.doors
    rw [hlead]
    rfl
  · exact Frame.refl

theorem processLeadAction_frame {action : LeadAction} : Frame s (s.processLeadAction moment action).1 := by
  unfold processLeadAction
  split
  · split
    · exact redispatchLead_frame
    · exact Frame.refl
  · exact Frame.refl

theorem processLead_frame : Frame s (processLead moment s actions).1 := by
  induction actions generalizing s with
  | nil => exact Frame.refl
  | cons action rest ih => exact processLeadAction_frame.trans ih

/-- A call of the lead's machine, where there is one. -/
theorem callLead_frame (hlead : s.lead.isSome = true) : Frame s (s.callLead moment r).1 := by
  have hwith : Frame s { s with lead := some r.1 } := by
    refine ⟨?_, rfl⟩
    unfold Session.doors
    rw [hlead]
    rfl
  exact hwith.trans processLead_frame

/-- Only the memory of capabilities is written. -/
theorem noteCaps_eq : ∃ memory, s.noteCaps env = { s with capMemory := memory } := by
  have hrecord : ∀ nodeId missing, ∃ memory, s.recordCapMemory nodeId missing = { s with capMemory := memory } := by
    intro nodeId missing
    unfold recordCapMemory
    dsimp only
    split
    · exact ⟨s.capMemory, rfl⟩
    · exact ⟨_, rfl⟩
  unfold noteCaps
  dsimp only
  split
  · split
    · exact hrecord _ _
    · exact ⟨s.capMemory, rfl⟩
  split
  · split
    · exact hrecord _ _
    · exact ⟨s.capMemory, rfl⟩
  · exact ⟨s.capMemory, rfl⟩

/-! ## What an envelope meets there -/

namespace Doors

def offersOf (d : Doors) (source : String) (now : Int) : List Int :=
  (((Table.lookup Prod.fst source d.offersBySource).map Prod.snd).getD []).filter fun t => now - t < 60000

/-- The machine an envelope reaches that is not suppressed. -/
def reaches (d : Doors) (now : Int) (env : Json) : Option Side :=
  if familyOf (Env.type env) ≠ "task" ∧ familyOf (Env.type env) ≠ "rpc" then none
  else if Env.type env = "task.offer" then
    if d.acceptRemotePaused = true ∨ d.maxOffersPerMinPerSource ≤ (d.offersOf (Env.fromNode env) now).length then none
    else some .executor
  else if Env.type env = "task.cancel" then some .executor
  else if Env.type env = "rpc.ask" ∨ Env.type env = "rpc.answer" then none
  else if d.hasLead then some .lead else none

/-- The doors after it. -/
def passed (d : Doors) (now : Int) (env : Json) : Doors :=
  if familyOf (Env.type env) ≠ "task" ∧ familyOf (Env.type env) ≠ "rpc" then d
  else if Env.type env = "task.offer" then
    if d.acceptRemotePaused then d
    else
      let win := d.offersOf (Env.fromNode env) now
      let win := if d.maxOffersPerMinPerSource ≤ win.length then win else win ++ [now]
      { d with offersBySource := Table.put Prod.fst (Env.fromNode env, win) d.offersBySource }
  else d

/-- The doors after a call that brings no envelope. -/
def called (d : Doors) : Call → Doors
  | .startLeadTask _ _ _ _ => { d with hasLead := true }
  | .setAcceptRemotePaused paused => { d with acceptRemotePaused := paused }
  | _ => d

end Doors

theorem onOffer_meets : (s.onOfferEnvelope host moment env).session.dedup = s.dedup ∧
    (s.onOfferEnvelope host moment env).session.doors = (if s.doors.acceptRemotePaused then s.doors
      else
        let win := s.doors.offersOf (Env.fromNode env) moment.now
        let win := if s.doors.maxOffersPerMinPerSource ≤ win.length then win else win ++ [moment.now]
        { s.doors with offersBySource := Table.put Prod.fst (Env.fromNode env, win) s.doors.offersBySource }) ∧
    (s.onOfferEnvelope host moment env).suppressed = false ∧
    (s.onOfferEnvelope host moment env).reached =
      if s.doors.acceptRemotePaused = true ∨
          s.doors.maxOffersPerMinPerSource ≤ (s.doors.offersOf (Env.fromNode env) moment.now).length then none
      else some .executor := by
  unfold onOfferEnvelope
  by_cases hpaused : s.acceptRemotePaused = true
  · rw [if_pos hpaused, if_pos (show s.doors.acceptRemotePaused = true from hpaused),
      if_pos (Or.inl (show s.doors.acceptRemotePaused = true from hpaused))]
    exact ⟨rfl, rfl, rfl, rfl⟩
  rw [if_neg hpaused, if_neg (show ¬ s.doors.acceptRemotePaused = true from hpaused)]
  dsimp only
  by_cases hfull : s.maxOffersPerMinPerSource ≤ (s.offersOf (Env.fromNode env) moment.now).length
  · rw [if_pos hfull]
    have hfull' : s.doors.maxOffersPerMinPerSource ≤ (s.doors.offersOf (Env.fromNode env) moment.now).length := hfull
    rw [if_pos hfull', if_pos (Or.inr hfull')]
    exact ⟨rfl, rfl, rfl, rfl⟩
  · rw [if_neg hfull]
    have hfull' : ¬ s.doors.maxOffersPerMinPerSource ≤ (s.doors.offersOf (Env.fromNode env) moment.now).length := hfull
    rw [if_neg hfull', if_neg fun h => h.elim hpaused hfull']
    exact ⟨rfl, rfl, rfl, rfl⟩

theorem onLead_meets : (s.onLeadEnvelope moment env).session.dedup = s.dedup ∧
    (s.onLeadEnvelope moment env).session.doors = s.doors ∧ (s.onLeadEnvelope moment env).suppressed = false ∧
    (s.onLeadEnvelope moment env).reached = if s.doors.hasLead then some .lead else none := by
  unfold onLeadEnvelope
  cases hlead : s.lead with
  | none =>
    refine ⟨rfl, rfl, rfl, (if_neg ?_).symm⟩
    show ¬ s.lead.isSome = true
    rw [hlead]
    exact Bool.false_ne_true
  | some lead =>
    have hsome : s.lead.isSome = true := by rw [hlead]; rfl
    have hframe : ∀ r, Frame s ((s.noteCaps env).callLead moment r).1 := by
      intro r
      obtain ⟨memory, hmemory⟩ := @noteCaps_eq s env
      rw [hmemory]
      have hcall := @callLead_frame moment { s with capMemory := memory } r hsome
      exact ⟨hcall.doors, hcall.dedup⟩
    exact ⟨(hframe _).dedup, (hframe _).doors, rfl, (if_pos hsome).symm⟩

/-- **What becomes of an envelope behind the dedup.** -/
theorem dispatch_meets : (s.dispatch host moment env).session.dedup = s.dedup ∧
    (s.dispatch host moment env).session.doors = s.doors.passed moment.now env ∧
    (s.dispatch host moment env).suppressed = false ∧
    (s.dispatch host moment env).reached = s.doors.reaches moment.now env := by
  unfold dispatch Doors.passed Doors.reaches
  split
  · exact ⟨rfl, rfl, rfl, rfl⟩
  split
  · exact onOffer_meets
  split
  · exact ⟨rfl, rfl, rfl, rfl⟩
  split
  · exact ⟨rfl, rfl, rfl, rfl⟩
  · exact onLead_meets

theorem cancelLead_frame : Frame s (s.cancelLead moment taskId).1 := by
  unfold cancelLead
  cases hlead : s.lead with
  | none => exact Frame.refl
  | some lead =>
    dsimp only
    split
    · exact callLead_frame (by rw [hlead]; rfl)
    · exact Frame.refl

theorem startLeadTask_meets {kind : TaskKind} {offerBody : Json} :
    (s.startLeadTask moment taskId kind target offerBody).1.dedup = s.dedup ∧
      (s.startLeadTask moment taskId kind target offerBody).1.doors = { s.doors with hasLead := true } := by
  unfold startLeadTask
  split
  · rename_i hsame
    have hlead : s.lead.isSome = true := by
      cases hlead : s.lead with
      | none => exact absurd hsame (by rw [hlead]; exact Bool.false_ne_true)
      | some lead => rfl
    refine ⟨rfl, ?_⟩
    unfold Session.doors
    rw [hlead]
  · exact ⟨processLead_frame.dedup, processLead_frame.doors⟩

/-- A call that brings no envelope. -/
theorem call_meets (h : ∀ env, i.call ≠ .envelope env) : (s.handle host i).session.dedup = s.dedup ∧
    (s.handle host i).session.doors = s.doors.called i.call ∧ (s.handle host i).suppressed = false ∧
    (s.handle host i).reached = none := by
  unfold handle
  cases hcall : i.call with
  | envelope env => exact absurd hcall (h env)
  | leadTimer timer =>
    dsimp only
    cases hlead : s.lead with
    | none => exact ⟨rfl, rfl, rfl, rfl⟩
    | some lead =>
      have hframe : Frame s (s.callLead i.moment (lead.onTimer timer i.moment.now)).1 := callLead_frame (by rw [hlead]; rfl)
      exact ⟨hframe.dedup, hframe.doors, rfl, rfl⟩
  | execTimer timer => exact ⟨rfl, rfl, rfl, rfl⟩
  | progressDelivered => exact ⟨rfl, rfl, rfl, rfl⟩
  | driverCompleted resultBody => exact ⟨rfl, rfl, rfl, rfl⟩
  | driverFailed failBody => exact ⟨rfl, rfl, rfl, rfl⟩
  | startLeadTask taskId kind target offerBody =>
    obtain ⟨hdedup, hdoors⟩ := @startLeadTask_meets i.moment s taskId target kind offerBody
    exact ⟨hdedup, hdoors, rfl, rfl⟩
  | redispatchLead taskId target =>
    have hframe := @redispatchLead_frame s i.moment.now taskId target
    exact ⟨hframe.dedup, hframe.doors, rfl, rfl⟩
  | cancelLead taskId =>
    have hframe := @cancelLead_frame i.moment s taskId
    exact ⟨hframe.dedup, hframe.doors, rfl, rfl⟩
  | setAcceptRemotePaused paused => exact ⟨rfl, rfl, rfl, rfl⟩

/-! ## What the dedup sees -/

/-- The target of the lead's task, or the lead of the executor's. -/
def IsPeer (s : Session) (node : String) : Prop :=
  s.lead.bind (fun lead => lead.record.target) = some node ∨ s.exec.record.from_node = some node

instance {node : String} : Decidable (s.IsPeer node) := inferInstanceAs (Decidable (_ ∨ _))

/-- An envelope of a peer. -/
def OfPeer (s : Session) (i : Input) : Prop := ∃ env, i.call = .envelope env ∧ s.IsPeer (Env.fromNode env)

/-- An envelope of any other node, an offer excepted. -/
def Deletable (s : Session) (i : Input) : Prop :=
  ∃ env, i.call = .envelope env ∧ ¬ s.IsPeer (Env.fromNode env) ∧ Env.type env ≠ "task.offer"

/-- What the dedup sees of an input: a key, the moment, and whether it may be deleted. -/
def arrivalOf (s : Session) (i : Input) : Option (Arrival Key) :=
  match i.call with
  | .envelope env =>
    if s.isAddressed env then
      (keyOf env).map fun key =>
        ⟨key, i.moment.now, decide (¬ s.IsPeer (Env.fromNode env) ∧ Env.type env ≠ "task.offer")⟩
    else none
  | _ => none

/-- What the dedup sees of a run. -/
def arrivals (host : Host) (s : Session) : List Input → List (Arrival Key)
  | [] => []
  | i :: rest => (s.arrivalOf i).toList ++ arrivals host (s.after host i) rest

theorem keyOf_type {key : Key} (h : keyOf env = some key) : key.type = Env.type env ∧ key.type ≠ "task.progress" := by
  unfold keyOf at h
  split at h
  · rename_i hkey
    cases h
    exact ⟨rfl, hkey.2⟩
  · exact absurd h (by simp)

theorem onEnvelope_keyless (haddressed : s.isAddressed env = true) (hkey : keyOf env = none) :
    s.onEnvelope host moment env = s.dispatch host moment env := by
  unfold onEnvelope
  rw [haddressed, hkey]
  rfl

theorem onEnvelope_first {key : Key} (haddressed : s.isAddressed env = true) (hkey : keyOf env = some key)
    (hfirst : (checkAndRecord host s.dedup key (Env.body env) moment.now).2 = .first) :
    s.onEnvelope host moment env =
      dispatch host moment { s with dedup := (checkAndRecord host s.dedup key (Env.body env) moment.now).1 } env := by
  unfold onEnvelope
  rw [haddressed, hkey]
  exact if_pos hfirst

theorem onEnvelope_second {key : Key} (haddressed : s.isAddressed env = true) (hkey : keyOf env = some key)
    (hfirst : (checkAndRecord host s.dedup key (Env.body env) moment.now).2 ≠ .first) :
    s.onEnvelope host moment env = { session := drop { s with dedup :=
      (checkAndRecord host s.dedup key (Env.body env) moment.now).1 }, suppressed := true } := by
  unfold onEnvelope
  rw [haddressed, hkey]
  exact if_neg hfirst

/-- Where the dedup sees nothing it stays as it is, and nothing is suppressed. -/
theorem arrivalOf_none (h : s.arrivalOf i = none) :
    (s.after host i).dedup = s.dedup ∧ (s.handle host i).suppressed = false := by
  unfold arrivalOf at h
  cases hcall : i.call with
  | envelope env =>
    have heq : s.handle host i = s.onEnvelope host i.moment env := by rw [handle, hcall]
    rw [hcall] at h
    rw [after, heq]
    cases haddressed : s.isAddressed env with
    | false =>
      unfold onEnvelope
      rw [haddressed]
      exact ⟨rfl, rfl⟩
    | true =>
      have hkey : keyOf env = none := by
        dsimp only at h
        rw [if_pos haddressed] at h
        exact Option.map_eq_none_iff.mp h
      rw [onEnvelope_keyless haddressed hkey]
      exact ⟨dispatch_meets.1, dispatch_meets.2.2.1⟩
  | _ =>
    have hmeets := @call_meets host s i fun env heq => by rw [hcall] at heq; exact Call.noConfusion heq
    exact ⟨hmeets.1, hmeets.2.2.1⟩

/-- **What an envelope of a key leaves in the dedup**; it is suppressed where the key is taken. -/
theorem arrivalOf_some (host : Host) {x : Arrival Key} (h : s.arrivalOf i = some x) :
    (s.after host i).dedup.recent = s.dedup.recent.after x ∧
      ((s.handle host i).suppressed = false ↔ s.dedup.recent.takenSince x.key x.time = none) := by
  unfold arrivalOf at h
  split at h
  · rename_i env hcall
    have heq : s.handle host i = s.onEnvelope host i.moment env := by rw [handle, hcall]
    split at h
    · rename_i haddressed
      obtain ⟨key, hkey, rfl⟩ := Option.map_eq_some_iff.mp h
      have hprogress := (keyOf_type hkey).2
      rw [after, heq, ← @check_first_iff host s.dedup key (Env.body env) i.moment.now hprogress]
      by_cases hfirst : (checkAndRecord host s.dedup key (Env.body env) i.moment.now).2 = .first
      · rw [onEnvelope_first haddressed hkey hfirst, dispatch_meets.1, dispatch_meets.2.2.1]
        exact ⟨recent_check hprogress, fun _ => hfirst, fun _ => rfl⟩
      · rw [onEnvelope_second haddressed hkey hfirst]
        exact ⟨recent_check hprogress, fun hfalse => absurd hfalse (by simp), fun h => absurd h hfirst⟩
    · exact absurd h (by simp)
  · exact absurd h (by simp)

/-- The doors after an input, and the machine it reaches, given whether the dedup suppresses it. -/
def Doors.meets (d : Doors) (i : Input) (suppressed : Bool) : Doors × Option Side :=
  match i.call with
  | .envelope env =>
    if suppressed || !(decide (Env.toNode env = d.nodeId) && !(Env.fromTeam env).any fun team => team ≠ d.teamId) then (d, none)
    else (d.passed i.moment.now env, d.reaches i.moment.now env)
  | call => (d.called call, none)

/-- **An input meets what the doors have of it.** -/
theorem handle_meets :
    ((s.after host i).doors, (s.handle host i).reached) = s.doors.meets i (s.handle host i).suppressed := by
  unfold Doors.meets
  cases hcall : i.call with
  | envelope env =>
    have heq : s.handle host i = s.onEnvelope host i.moment env := by rw [handle, hcall]
    have hdoor : (decide (Env.toNode env = s.doors.nodeId) && !(Env.fromTeam env).any fun team => team ≠ s.doors.teamId) =
      s.isAddressed env := rfl
    dsimp only
    rw [after, heq, hdoor]
    cases haddressed : s.isAddressed env with
    | false =>
      rw [if_pos (by simp)]
      unfold onEnvelope
      rw [haddressed]
      rfl
    | true =>
      cases hkey : keyOf env with
      | none =>
        rw [onEnvelope_keyless haddressed hkey, dispatch_meets.2.1, dispatch_meets.2.2.1, dispatch_meets.2.2.2]
        rfl
      | some key =>
        by_cases hfirst : (checkAndRecord host s.dedup key (Env.body env) i.moment.now).2 = .first
        · rw [onEnvelope_first haddressed hkey hfirst, dispatch_meets.2.1, dispatch_meets.2.2.1, dispatch_meets.2.2.2]
          rfl
        · rw [onEnvelope_second haddressed hkey hfirst]
          rfl
  | _ =>
    obtain ⟨-, hdoors, -, hreached⟩ := @call_meets host s i fun env heq => by rw [hcall] at heq; exact Call.noConfusion heq
    rw [after, hdoors, hreached, hcall]

/-- Only offers change the doors. -/
theorem envelope_doors (hcall : i.call = .envelope env) (hoffer : Env.type env ≠ "task.offer") :
    (s.after host i).doors = s.doors := by
  have hmeets := congrArg Prod.fst (@handle_meets host s i)
  unfold Doors.meets at hmeets
  rw [hcall] at hmeets
  refine hmeets.trans ?_
  dsimp only
  split
  · rfl
  · unfold Doors.passed
    dsimp only
    rw [if_neg hoffer, ite_self]

/-- The node and its team stay. -/
theorem after_ids : (s.after host i).nodeId = s.nodeId ∧ (s.after host i).teamId = s.teamId := by
  have hmeets := congrArg Prod.fst (@handle_meets host s i)
  have hkeeps : ∀ suppressed, (s.doors.meets i suppressed).1.nodeId = s.nodeId ∧
      (s.doors.meets i suppressed).1.teamId = s.teamId := by
    intro suppressed
    unfold Doors.meets
    split
    · split
      · exact ⟨rfl, rfl⟩
      · unfold Doors.passed
        dsimp only
        repeat' split
        all_goals exact ⟨rfl, rfl⟩
    · unfold Doors.called
      split <;> exact ⟨rfl, rfl⟩
  have hnode : (s.after host i).doors.nodeId = s.nodeId := (congrArg Doors.nodeId hmeets).trans (hkeeps _).1
  have hteam : (s.after host i).doors.teamId = s.teamId := (congrArg Doors.teamId hmeets).trans (hkeeps _).2
  exact ⟨hnode, hteam⟩

theorem arrivalOf_eq_some {x : Arrival Key} : s.arrivalOf i = some x ↔ ∃ env key, i.call = .envelope env ∧
    s.isAddressed env = true ∧ keyOf env = some key ∧
    x = ⟨key, i.moment.now, decide (¬ s.IsPeer (Env.fromNode env) ∧ Env.type env ≠ "task.offer")⟩ := by
  unfold arrivalOf
  constructor
  · intro h
    split at h
    · rename_i env hcall
      split at h
      · rename_i haddressed
        obtain ⟨key, hkey, rfl⟩ := Option.map_eq_some_iff.mp h
        exact ⟨env, key, hcall, haddressed, hkey, rfl⟩
      · exact absurd h (by simp)
    · exact absurd h (by simp)
  · rintro ⟨env, key, hcall, haddressed, hkey, rfl⟩
    rw [hcall]
    dsimp only
    rw [if_pos haddressed, hkey]
    rfl

end

/-! ## Two runs -/

/-- What is heard of an input: whether it counts as a duplicate or a mismatch, and the machine it reaches. -/
def heard (host : Host) (s : Session) (i : Input) : Bool × Option Side :=
  ((s.handle host i).suppressed, (s.handle host i).reached)

/-- Of the inputs of a run only envelopes are deleted that no peer has sent, and no offers. -/
def DeletesOthers (host : Host) (full : Session) : List (Input × Bool) → Prop
  | [] => True
  | (i, kept) :: rest => (kept = false → full.Deletable i) ∧ DeletesOthers host (full.after host i) rest

/-- The run with all inputs and the one with those that are kept, side by side: of a peer's envelope the same is
    heard. -/
def PeersHeard (host : Host) (full thin : Session) : List (Input × Bool) → Prop
  | [] => True
  | (i, kept) :: rest =>
    (kept = true → full.OfPeer i → full.heard host i = thin.heard host i) ∧
      PeersHeard host (full.after host i) (if kept then thin.after host i else thin) rest

/-- What the dedup sees of the two runs. -/
def arrivalMarks (host : Host) (full : Session) : List (Input × Bool) → List (Arrival Key × Bool)
  | [] => []
  | (i, kept) :: rest =>
    (full.arrivalOf i).toList.map (fun x => (x, kept)) ++ arrivalMarks host (full.after host i) rest

section

variable {host : Host} {full thin : Session} {i : Input} {inputs : List Input} {marks : List (Input × Bool)}
  {xmarks : List (Arrival Key × Bool)} {x : Arrival Key} {kept : Bool}

theorem arrivalOf_foreign (h : full.arrivalOf i = some x) : x.foreign = true ↔ full.Deletable i := by
  obtain ⟨env, key, hcall, -, -, rfl⟩ := arrivalOf_eq_some.mp h
  rw [decide_eq_true_iff]
  constructor
  · intro hother
    exact ⟨env, hcall, hother⟩
  · rintro ⟨env', hcall', hother⟩
    cases hcall.symm.trans hcall'
    exact hother

/-- Strangers are own only in their offers. -/
theorem arrivalOf_own (h : full.arrivalOf i = some x) (hown : x.foreign = false) (htype : x.key.type ≠ "task.offer") :
    full.OfPeer i := by
  obtain ⟨env, key, hcall, -, hkey, rfl⟩ := arrivalOf_eq_some.mp h
  have hoffer : Env.type env ≠ "task.offer" := (keyOf_type hkey).1 ▸ htype
  by_contra hpeer
  exact of_decide_eq_false hown ⟨fun h => hpeer ⟨env, hcall, h⟩, hoffer⟩

theorem not_deletable_of_peer (h : full.OfPeer i) : ¬ full.Deletable i := by
  rintro ⟨env, hcall, hother, -⟩
  obtain ⟨env', hcall', hpeer⟩ := h
  cases hcall.symm.trans hcall'
  exact hother hpeer

/-- The runs are of one node. -/
def SameNode (full thin : Session) : Prop := full.nodeId = thin.nodeId ∧ full.teamId = thin.teamId

theorem SameNode.after (h : SameNode full thin) : SameNode (full.after host i) thin ∧
    SameNode (full.after host i) (thin.after host i) :=
  ⟨⟨after_ids.1.trans h.1, after_ids.2.trans h.2⟩,
    ⟨(after_ids.1.trans h.1).trans after_ids.1.symm, (after_ids.2.trans h.2).trans after_ids.2.symm⟩⟩

theorem SameNode.isAddressed (h : SameNode full thin) (env : Json) : thin.isAddressed env = full.isAddressed env := by
  unfold Session.isAddressed
  rw [h.1, h.2]

/-- An input has the same key in both runs. -/
theorem arrivalOf_thin (hnode : SameNode full thin) (h : full.arrivalOf i = some x) :
    ∃ x', thin.arrivalOf i = some x' ∧ x'.key = x.key ∧ x'.time = x.time := by
  obtain ⟨env, key, hcall, haddressed, hkey, rfl⟩ := arrivalOf_eq_some.mp h
  exact ⟨_, arrivalOf_eq_some.mpr ⟨env, key, hcall, (hnode.isAddressed env).trans haddressed, hkey, rfl⟩, rfl, rfl⟩

theorem arrivalOf_thin_none (hnode : SameNode full thin) (h : full.arrivalOf i = none) : thin.arrivalOf i = none := by
  cases hthin : thin.arrivalOf i with
  | none => rfl
  | some x =>
    obtain ⟨x', hx', -⟩ := arrivalOf_thin ⟨hnode.1.symm, hnode.2.symm⟩ hthin
    exact absurd (hx'.symm.trans h) (by simp)

/-- The dedup of a run with this arrival, or without. -/
theorem thin_recent (hnode : SameNode full thin) (h : full.arrivalOf i = some x) :
    (if kept then thin.after host i else thin).dedup.recent =
      if kept then thin.dedup.recent.after x else thin.dedup.recent := by
  obtain ⟨x', hx', hkey, htime⟩ := arrivalOf_thin hnode h
  cases kept with
  | false => rfl
  | true =>
    show (thin.after host i).dedup.recent = thin.dedup.recent.arrive x.key x.time
    rw [(arrivalOf_some host hx').1, ← hkey, ← htime]
    rfl

theorem thin_dedup (hnode : SameNode full thin) (h : full.arrivalOf i = none) :
    (if kept then thin.after host i else thin).dedup = thin.dedup := by
  cases kept with
  | false => rfl
  | true => exact (arrivalOf_none (arrivalOf_thin_none hnode h)).1

theorem SameNode.step (hnode : SameNode full thin) :
    SameNode (full.after host i) (if kept then thin.after host i else thin) := by
  cases kept with
  | false => exact hnode.after.1
  | true => exact hnode.after.2

/-- An arrival is suppressed alike where the keys are taken alike. -/
theorem suppressed_iff (hnode : SameNode full thin) (h : full.arrivalOf i = some x) :
    ((full.handle host i).suppressed = (thin.handle host i).suppressed) ↔
      (full.dedup.recent.takenSince x.key x.time = none ↔ thin.dedup.recent.takenSince x.key x.time = none) := by
  obtain ⟨x', hx', hkey, htime⟩ := arrivalOf_thin hnode h
  rw [← (arrivalOf_some host h).2, ← hkey, ← htime, ← (arrivalOf_some host hx').2]
  cases (full.handle host i).suppressed <;> cases (thin.handle host i).suppressed <;> simp

/-! ### What the dedup sees -/

theorem arrivalMarks_fst : (arrivalMarks host full marks).map Prod.fst = arrivals host full (marks.map Prod.fst) := by
  induction marks generalizing full with
  | nil => rfl
  | cons m marks ih =>
    obtain ⟨i, kept⟩ := m
    rw [arrivalMarks, List.map_append, ih, List.map_map]
    show List.map (fun x => x) _ ++ _ = _
    rw [List.map_id']
    rfl

theorem arrivalMarks_deletes (h : DeletesOthers host full marks) : DeletesForeign (arrivalMarks host full marks) := by
  induction marks generalizing full with
  | nil => exact fun m hm => absurd hm List.not_mem_nil
  | cons m marks ih =>
    obtain ⟨i, kept⟩ := m
    intro m hm hdeleted
    rcases List.mem_append.mp hm with hm | hm
    · obtain ⟨x, hx, rfl⟩ := List.mem_map.mp hm
      exact (arrivalOf_foreign (Option.mem_toList.mp hx)).mpr (h.1 hdeleted)
    · exact ih h.2 m hm hdeleted

theorem exists_of_mem_arrivals (h : x ∈ arrivals host full inputs) : ∃ s i, arrivalOf s i = some x := by
  induction inputs generalizing full with
  | nil => exact absurd h List.not_mem_nil
  | cons i inputs ih =>
    rcases List.mem_append.mp h with h | h
    · exact ⟨full, i, Option.mem_toList.mp h⟩
    · exact ih h

/-- Every choice among the arrivals is one among the inputs. -/
theorem exists_marks (hmarks : xmarks.map Prod.fst = arrivals host full inputs) (hdeletes : DeletesForeign xmarks) :
    ∃ marks, marks.map Prod.fst = inputs ∧ DeletesOthers host full marks ∧ arrivalMarks host full marks = xmarks := by
  induction inputs generalizing full xmarks with
  | nil => exact ⟨[], rfl, trivial, (List.map_eq_nil_iff.mp hmarks).symm⟩
  | cons i inputs ih =>
    rw [arrivals] at hmarks
    cases hx : full.arrivalOf i with
    | none =>
      rw [hx] at hmarks
      obtain ⟨marks, hfst, hothers, heq⟩ := ih hmarks hdeletes
      refine ⟨(i, true) :: marks, congrArg (i :: ·) hfst, ⟨fun h => absurd h (by simp), hothers⟩, ?_⟩
      rw [arrivalMarks, hx, heq]
      rfl
    | some x =>
      rw [hx] at hmarks
      cases xmarks with
      | nil => exact absurd hmarks.symm (List.cons_ne_nil _ _)
      | cons m xmarks =>
        obtain ⟨x', kept⟩ := m
        have hhead : x' = x := (List.cons.inj hmarks).1
        have htail : xmarks.map Prod.fst = arrivals host (full.after host i) inputs := (List.cons.inj hmarks).2
        subst hhead
        obtain ⟨marks, hfst, hothers, heq⟩ := ih htail fun m hm => hdeletes m (List.mem_cons_of_mem _ hm)
        refine ⟨(i, kept) :: marks, congrArg (i :: ·) hfst, ⟨fun hkept => ?_, hothers⟩, ?_⟩
        · exact (arrivalOf_foreign hx).mp (hdeletes _ List.mem_cons_self hkept)
        · rw [arrivalMarks, hx, heq]
          rfl

/-- What is heard of the peers says of which keys the dedups agree. -/
theorem agree_of_peersHeard (hnode : SameNode full thin) (hothers : DeletesOthers host full marks)
    (h : PeersHeard host full thin marks) :
    Recent.Agree (fun key : Key => key.type ≠ "task.offer") full.dedup.recent thin.dedup.recent
      (arrivalMarks host full marks) := by
  induction marks generalizing full thin with
  | nil => trivial
  | cons m marks ih =>
    obtain ⟨i, kept⟩ := m
    have hrest := ih hnode.step hothers.2 h.2
    cases hx : full.arrivalOf i with
    | none =>
      rw [arrivalMarks, hx]
      rw [(arrivalOf_none hx).1, thin_dedup hnode hx] at hrest
      exact hrest
    | some x =>
      rw [arrivalMarks, hx]
      rw [(arrivalOf_some host hx).1, thin_recent hnode hx] at hrest
      refine ⟨fun hown htype => ?_, hrest⟩
      have hpeer := arrivalOf_own hx hown htype
      have hkept : kept = true := by
        cases kept with
        | true => rfl
        | false => exact absurd (hothers.1 rfl) (not_deletable_of_peer hpeer)
      exact (suppressed_iff hnode hx).mp (congrArg Prod.fst (h.1 hkept hpeer))

theorem sameNode_of_doors (h : full.doors = thin.doors) : SameNode full thin :=
  ⟨congrArg Doors.nodeId h, congrArg Doors.teamId h⟩

/-- The doors of the two runs are the same, and so is what is heard of the peers. -/
theorem peersHeard_of_agree (hdoors : full.doors = thin.doors) (hothers : DeletesOthers host full marks)
    (h : Recent.Agree (fun _ => True) full.dedup.recent thin.dedup.recent (arrivalMarks host full marks)) :
    PeersHeard host full thin marks := by
  induction marks generalizing full thin with
  | nil => trivial
  | cons m marks ih =>
    obtain ⟨i, kept⟩ := m
    have hnode := sameNode_of_doors hdoors
    -- an input that is not to be deleted is suppressed in both runs or in neither
    have hsuppressed : ¬ full.Deletable i → (full.handle host i).suppressed = (thin.handle host i).suppressed := by
      intro hnot
      cases hx : full.arrivalOf i with
      | none => rw [(arrivalOf_none hx).2, (arrivalOf_none (arrivalOf_thin_none hnode hx)).2]
      | some x =>
        rw [arrivalMarks, hx] at h
        refine (suppressed_iff hnode hx).mpr (h.1 ?_ trivial)
        cases hforeign : x.foreign with
        | false => rfl
        | true => exact absurd ((arrivalOf_foreign hx).mp hforeign) hnot
    have hmeets : ¬ full.Deletable i →
        ((full.after host i).doors, (full.handle host i).reached) = ((thin.after host i).doors, (thin.handle host i).reached) := by
      intro hnot
      rw [handle_meets, handle_meets, hdoors, hsuppressed hnot]
    refine ⟨fun _ hpeer => ?_, ih ?_ hothers.2 ?_⟩
    · have hnot := not_deletable_of_peer hpeer
      have hreached : (full.handle host i).reached = (thin.handle host i).reached := congrArg Prod.snd (hmeets hnot)
      exact Prod.ext (hsuppressed hnot) hreached
    · by_cases hdeletable : full.Deletable i
      · obtain ⟨env, hcall, -, hoffer⟩ := hdeletable
        rw [envelope_doors hcall hoffer]
        cases kept with
        | false => exact hdoors
        | true => exact hdoors.trans (envelope_doors hcall hoffer).symm
      · cases kept with
        | false => exact absurd (hothers.1 rfl) hdeletable
        | true => exact congrArg Prod.fst (hmeets hdeletable)
    · cases hx : full.arrivalOf i with
      | none =>
        rw [arrivalMarks, hx] at h
        rw [(arrivalOf_none hx).1, thin_dedup hnode hx]
        exact h
      | some x =>
        rw [arrivalMarks, hx] at h
        rw [(arrivalOf_some host hx).1, thin_recent hnode hx]
        exact h.2

/-- **Peers are heard as if no other node had sent anything but offers**, in exactly the runs in which nothing of
    another node is ahead of a peer. -/
theorem peers_undisturbed {s : Session} (hempty : s.dedup.map = []) (horder : InOrder (arrivals host s inputs)) :
    (∀ marks, marks.map Prod.fst = inputs → DeletesOthers host s marks → PeersHeard host s s marks) ↔
      Recent.NoneAhead s.dedup.recent [] (arrivals host s inputs) := by
  have hrows : s.dedup.recent.rows = [] := by
    unfold DedupStore.recent
    rw [hempty]
    rfl
  constructor
  · intro h
    refine Recent.noneAhead_of_undisturbed (P := fun key => key.type ≠ "task.offer") horder hrows ?_ fun xmarks hfst hdeletes => ?_
    · intro x hx hforeign
      obtain ⟨s', i, hi⟩ := exists_of_mem_arrivals hx
      obtain ⟨env, key, hcall, -, hkey, heq⟩ := arrivalOf_eq_some.mp hi
      obtain ⟨env', hcall', -, hoffer⟩ := (arrivalOf_foreign hi).mp hforeign
      cases hcall.symm.trans hcall'
      rw [heq]
      exact (keyOf_type hkey).1 ▸ hoffer
    · obtain ⟨marks, hmarks, hothers, rfl⟩ := exists_marks hfst hdeletes
      exact agree_of_peersHeard ⟨rfl, rfl⟩ hothers (h marks hmarks hothers)
  · rintro h marks rfl hothers
    exact peersHeard_of_agree rfl hothers
      (Recent.undisturbed_of_noneAhead horder h _ arrivalMarks_fst (arrivalMarks_deletes hothers))

end

/-! ## A third member of the team -/

section

def peersHost : Host := .ofTables [] Sample.calendar

def nodeC : String := "eeeeeeee-eeee-4eee-8eee-eeeeeeeeeeee"

def quietMoment : Moment := ⟨Sample.now, ⟨fun _ => some .ok, some [], some none, none⟩, none, fun _ _ _ => none⟩

/-- The lead `nodeA` has not yet begun. -/
def leadSession : Session := create Sample.nodeA "team" defaultParams none none 30 false

/-- The acceptance of the sample's task, from a node of the team. -/
def acceptOf (node : String) (n : Nat) : Input :=
  ⟨quietMoment, .envelope (signEnvelope peersHost (unsigned peersHost ⟨node, "team", 1⟩ defaultParams
    ⟨Sample.now, Sample.msg n, Sample.task⟩
    ⟨"task.accept", Sample.nodeA, some Sample.task, some 1, none, .obj [("lease_ms", .num 60000)]⟩))⟩

def beginTask : Input := ⟨quietMoment, .startLeadTask Sample.task .aid Sample.nodeB (.obj [])⟩

def acceptKey : Key := ⟨Sample.task, 1, "task.accept"⟩

/-- **The peer's acceptance is suppressed** by one of another member that was sent ahead of it. -/
theorem accept_suppressed : ∃ marks, marks.map Prod.fst = [beginTask, acceptOf nodeC 1, acceptOf Sample.nodeB 2] ∧
    InOrder (arrivals peersHost leadSession (marks.map Prod.fst)) ∧ DeletesOthers peersHost leadSession marks ∧
    ¬ PeersHeard peersHost leadSession leadSession marks := by
  refine ⟨[(beginTask, true), (acceptOf nodeC 1, false), (acceptOf Sample.nodeB 2, true)], rfl, ?_, ?_, fun h => ?_⟩
  · have harrivals : arrivals peersHost leadSession [beginTask, acceptOf nodeC 1, acceptOf Sample.nodeB 2] =
        [⟨acceptKey, Sample.now, true⟩, ⟨acceptKey, Sample.now, false⟩] := by decide +kernel
    exact harrivals ▸ List.pairwise_pair.mpr (le_refl _)
  · exact ⟨fun h => absurd h (by simp), fun _ => ⟨_, rfl, by decide +kernel, by decide +kernel⟩,
      fun h => absurd h (by simp), trivial⟩
  · have hpeer : OfPeer (after peersHost (after peersHost leadSession beginTask) (acceptOf nodeC 1)) (acceptOf Sample.nodeB 2) :=
      ⟨_, rfl, by decide +kernel⟩
    have hsame := h.2.2.1 rfl hpeer
    exact absurd hsame (by decide +kernel)

/-- Behind it, the same acceptance leaves the peer's alone. -/
theorem accept_heard : arrivals peersHost leadSession [beginTask, acceptOf Sample.nodeB 1, acceptOf nodeC 2] =
      [⟨acceptKey, Sample.now, false⟩, ⟨acceptKey, Sample.now, true⟩] ∧
    ∀ marks, marks.map Prod.fst = [beginTask, acceptOf Sample.nodeB 1, acceptOf nodeC 2] →
      DeletesOthers peersHost leadSession marks → PeersHeard peersHost leadSession leadSession marks := by
  have harrivals : arrivals peersHost leadSession [beginTask, acceptOf Sample.nodeB 1, acceptOf nodeC 2] =
      [⟨acceptKey, Sample.now, false⟩, ⟨acceptKey, Sample.now, true⟩] := by decide +kernel
  refine ⟨harrivals, (peers_undisturbed rfl ?_).mpr ?_⟩
  · exact harrivals ▸ List.pairwise_pair.mpr (le_refl _)
  · rw [harrivals]
    exact ⟨fun h => absurd h (by simp), fun _ => Or.inl ⟨_, List.mem_cons_self, rfl, by decide +kernel⟩, trivial⟩

end

end Session

end Remote
end Qlong
