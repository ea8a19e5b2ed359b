import Qlong.Lead.Completion

/-!
# The exclusion table over a run

An event writes at most one mark, always under the current target: a rejection for good writes
`permanent`, and whatever else takes a task away from its target writes `once` (`entered`). The
marks are assignments. Nothing reads the old mark before the new one replaces it, and nothing
ever deletes one.

So a node that was banned stays banned until the task is taken away from it again, and a rejected
task keeps the rejecting target on record while it waits for the next one: **`permanent_stays`**.
-/

namespace Qlong
namespace Lead

open Lib

/-! ## The table -/

/-- `excluded[node]`. -/
def scopeOf (table : List (String × Exclusion)) (node : String) : Option Exclusion :=
  (table.find? fun e => e.1 = node).map Prod.snd

theorem scopeOf_cons (e : String × Exclusion) (table : List (String × Exclusion)) (node : String) :
    scopeOf (e :: table) node = if e.1 = node then some e.2 else scopeOf table node := by
  unfold scopeOf
  rw [List.find?_cons]
  by_cases h : e.1 = node
  · simp [h]
  · simp [h]

theorem scopeOf_append_other {table : List (String × Exclusion)} {node other : String} {scope : Exclusion}
    (h : other ≠ node) : scopeOf (table ++ [(node, scope)]) other = scopeOf table other := by
  induction table with
  | nil => simp [scopeOf, Ne.symm h]
  | cons e rest ih => rw [List.cons_append, scopeOf_cons, scopeOf_cons, ih]

theorem scopeOf_append_new {table : List (String × Exclusion)} {node : String} {scope : Exclusion}
    (h : ∀ e ∈ table, e.1 ≠ node) : scopeOf (table ++ [(node, scope)]) node = some scope := by
  induction table with
  | nil => simp [scopeOf]
  | cons e rest ih =>
    rw [List.cons_append, scopeOf_cons, if_neg (h e List.mem_cons_self)]
    exact ih fun x hx => h x (List.mem_cons_of_mem _ hx)

theorem scopeOf_map_other {table : List (String × Exclusion)} {node other : String} {scope : Exclusion}
    (h : other ≠ node) :
    scopeOf (table.map fun e => if e.1 = node then (node, scope) else e) other = scopeOf table other := by
  induction table with
  | nil => rfl
  | cons e rest ih =>
    rw [List.map_cons, scopeOf_cons, scopeOf_cons, ih]
    by_cases he : e.1 = node
    · simp [he, Ne.symm h]
    · simp [he]

theorem scopeOf_map_new {table : List (String × Exclusion)} {node : String} {scope : Exclusion}
    (h : ∃ e ∈ table, e.1 = node) :
    scopeOf (table.map fun e => if e.1 = node then (node, scope) else e) node = some scope := by
  induction table with
  | nil => simp at h
  | cons e rest ih =>
    rw [List.map_cons, scopeOf_cons]
    by_cases he : e.1 = node
    · simp [he]
    · obtain ⟨x, hx, hxe⟩ := h
      rcases List.mem_cons.mp hx with rfl | hx
      · exact absurd hxe he
      · simp [he, ih ⟨x, hx, hxe⟩]

/-- Reading the table after an assignment. -/
theorem scopeOf_setExcluded (table : List (String × Exclusion)) (node other : String) (scope : Exclusion) :
    scopeOf (setExcluded table node scope) other
      = if other = node then some scope else scopeOf table other := by
  unfold setExcluded
  split
  · rename_i hany
    have hmem : ∃ e ∈ table, e.1 = node := by
      obtain ⟨e, he, hnode⟩ := List.any_eq_true.mp hany
      exact ⟨e, he, of_decide_eq_true hnode⟩
    split
    · rename_i ho
      rw [ho]
      exact scopeOf_map_new hmem
    · exact scopeOf_map_other ‹_›
  · rename_i hnone
    have hall : ∀ e ∈ table, e.1 ≠ node := by
      intro e he hnode
      exact hnone (List.any_eq_true.mpr ⟨e, he, decide_eq_true hnode⟩)
    split
    · rename_i ho
      rw [ho]
      exact scopeOf_append_new hall
    · exact scopeOf_append_other ‹_›

/-! ## What an event writes -/

/-- A rejection that rules the node out for the life of the task. -/
def isPersistent (code : String) : Bool :=
  decide (code = "unsupported_caps" ∨ code = "policy_denied" ∨ code = "refused_loop")

/-- `normalizeRejectCode(body.reason_code)`. -/
def rejectCode (body : Json) : String := normalizeRejectCode ((body.getStr "reason_code").getD "other")

/-- The mark a rejection writes. -/
def rejected (body : Json) : Option Exclusion :=
  if isPersistent (rejectCode body) then some .permanent
  else if rejectCode body = "busy" then none
  else some .once

/-- A rejection of the open offer. -/
def rejects (m : LeadTaskMachine) (type fromNode : String) (attempt : Int) : Bool :=
  m.record.state = .offered && hears m fromNode attempt && type = "task.reject"

/-- A timer that finds its time over. -/
def runsOut (m : LeadTaskMachine) (timer : TimerName) (now : Int) : Bool :=
  match timer, m.record.state with
  | .offer_ttl, .offered => true
  | .lease, .running => (LeadTaskMachine.leaseNotDue m.record now).isNone
  | _, _ => false

/-- The mark an event enters under the current target. -/
def entered (m : LeadTaskMachine) (e : Event) : Option Exclusion :=
  if m.terminal then none
  else
    match e with
    | .onMessage _ type fromNode attempt body _ _ =>
      if rejects m type fromNode attempt then rejected body else none
    | .onTimer timer now => if runsOut m timer now then some .once else none
    | .redispatchByOwner _ =>
      if m.record.state = .cancelling ∨ m.record.state = .reclaiming then none else some .once
    | _ => none

/-- `rec.excluded` with one more mark. -/
def marked (r : LeadRecord) (mark : Option Exclusion) : List (String × Exclusion) :=
  match mark, r.hasTarget with
  | some scope, some node => setExcluded r.excluded node scope
  | _, _ => r.excluded

theorem marked_none (r : LeadRecord) : marked r none = r.excluded := rfl

theorem exclude_excluded (r : LeadRecord) (scope : Exclusion) :
    (r.exclude scope).excluded = marked r (some scope) := by
  unfold LeadRecord.exclude marked
  cases r.hasTarget <;> rfl

theorem scopeOf_marked (r : LeadRecord) (mark : Option Exclusion) (node : String) :
    scopeOf (marked r mark) node
      = if r.hasTarget = some node ∧ mark.isSome = true then mark else scopeOf r.excluded node := by
  cases mark with
  | none => simp [marked]
  | some scope =>
    unfold marked
    cases ht : r.hasTarget with
    | none => simp
    | some target =>
      dsimp only
      rw [scopeOf_setExcluded]
      by_cases h : node = target
      · simp [h]
      · simp [h, Ne.symm h]

namespace LeadTaskMachine

/-! The shared tails of the machine leave the table alone. -/

@[simp] theorem finish_excluded (m : LeadTaskMachine) (state : LeadState) :
    (m.finish state).1.record.excluded = m.record.excluded := rfl

@[simp] theorem note_excluded (m : LeadTaskMachine) (outcome : Outcome) (code : Option String) :
    (m.note outcome code).record.excluded = m.record.excluded := rfl

@[simp] theorem beginReclaim_excluded (m : LeadTaskMachine) (reason : String) (now : Int)
    (entry : Option LeadHistoryEntry) :
    (m.beginReclaim reason now entry).1.record.excluded = m.record.excluded := by
  cases entry <;> rfl

@[simp] theorem budgetOrEscalate_excluded (m : LeadTaskMachine) (acc : Bool) :
    (m.budgetOrEscalate acc).1.record.excluded = m.record.excluded := by
  unfold budgetOrEscalate
  cases acc with
  | true =>
    simp only [if_true]
    split <;> rfl
  | false =>
    simp only [Bool.false_eq_true, if_false]
    split <;> rfl

@[simp] theorem offerTo_excluded (m : LeadTaskMachine) (attempt : Int) (target : String) (offerBody : Json)
    (now : Int) : (m.offerTo attempt target offerBody now).1.record.excluded = m.record.excluded := by
  unfold offerTo
  split
  · rfl
  · split
    · rfl
    · split <;> rfl

theorem applyExclusion_excluded (r : LeadRecord) (body : Json) :
    (applyExclusion r (rejectCode body)).excluded = marked r (rejected body) := by
  unfold applyExclusion rejected isPersistent
  by_cases hp : rejectCode body = "unsupported_caps" ∨ rejectCode body = "policy_denied" ∨
      rejectCode body = "refused_loop"
  · simp only [hp, decide_true, if_true, exclude_excluded]
  · by_cases hb : rejectCode body = "busy"
    · rw [if_neg hp, if_pos hb, if_neg (by simpa using hp), if_pos hb, marked_none]
    · simp only [hp, hb, decide_false, Bool.false_eq_true, if_false, exclude_excluded]

section Messages

variable (m : LeadTaskMachine) (validate : Json → Bool) (type fromNode : String) (body : Json) (now : Int)
  (msgId : Option String)

theorem onRunningMessage_excluded :
    (m.onRunningMessage validate type fromNode body now msgId).1.record.excluded = m.record.excluded := by
  unfold onRunningMessage
  split
  · dsimp only
    rcases leaseRenewal_cases { m with record := { m.record with
        leaseDeadline := some (now + lostAfterMs m.record.leaseMs m.params) } } fromNode body now msgId
      with hn | ⟨id, generation, runId, seq, -, -, -, -, hn⟩
    · simp only [hn]
    · simp only [hn]
  · split
    · split
      · rfl
      · simp only [beginReclaim_excluded]
    · split
      · split
        · rfl
        · simp only [beginReclaim_excluded]
      · rfl

theorem onReclaimingMessage_excluded :
    (m.onReclaimingMessage validate type body).1.record.excluded = m.record.excluded := by
  unfold onReclaimingMessage
  split
  · rfl
  · split
    · split <;> rfl
    · split
      · split <;> rfl
      · split
        · simp only [budgetOrEscalate_excluded]
        · rfl

theorem onCancellingMessage_excluded :
    (m.onCancellingMessage validate type body).1.record.excluded = m.record.excluded := by
  unfold onCancellingMessage
  split
  · split <;> rfl
  · split
    · rfl
    · split <;> rfl

theorem onOfferedMessage_excluded :
    (m.onOfferedMessage type fromNode body now).1.record.excluded
      = marked m.record (if type = "task.reject" then rejected body else none) := by
  unfold onOfferedMessage
  split
  · rename_i haccept
    have hreject : ¬ type = "task.reject" := by
      rw [haccept]
      decide
    rw [if_neg hreject]
    rfl
  · split
    · rw [budgetOrEscalate_excluded]
      exact applyExclusion_excluded (m.record.push ⟨fromNode, m.record.attempt, .rejected, _⟩) body
    · rfl

/-- Only a rejection of the open offer writes a mark. -/
theorem onMessage_excluded (attempt : Int) :
    (m.onMessage validate type fromNode attempt body now msgId).1.record.excluded
      = marked m.record (if m.terminal = false ∧ rejects m type fromNode attempt = true then rejected body
          else none) := by
  -- a rejection of the offer in flight marks its sender; every other message leaves the marks alone
  by_cases hr : m.terminal = false ∧ rejects m type fromNode attempt = true
  · obtain ⟨hlive, hrejects⟩ := hr
    have hreject := hrejects
    simp only [rejects, hears, Bool.and_eq_true, decide_eq_true_eq] at hreject
    obtain ⟨⟨hs, ht, ha⟩, htype⟩ := hreject
    rw [if_pos ⟨hlive, hrejects⟩]
    have h := m.onOfferedMessage_excluded type fromNode body now
    rw [if_pos htype] at h
    rw [← h]
    unfold onMessage
    simp [hlive, ht, ha, hs]
  · rw [if_neg hr]
    unfold onMessage
    split
    · rfl
    · rename_i hlive
      split
      · rfl
      · rename_i htarget
        split
        · rfl
        · split
          · rfl
          · split
            · rename_i hs
              have hother : ¬ type = "task.reject" := by
                intro htype
                refine hr ⟨by simpa using hlive, ?_⟩
                have ha : attempt = m.record.attempt := by omega
                simp [rejects, hears, hs, htype, ha, Eq.symm (not_not.mp htarget)]
              rw [onOfferedMessage_excluded, if_neg hother]
            · exact m.onRunningMessage_excluded ..
            · exact m.onReclaimingMessage_excluded ..
            · exact m.onCancellingMessage_excluded ..
            · rfl

end Messages

theorem onTimer_excluded (m : LeadTaskMachine) (timer : TimerName) (now : Int) :
    (m.onTimer timer now).1.record.excluded
      = marked m.record (if m.terminal = false ∧ runsOut m timer now = true then some .once else none) := by
  unfold onTimer runsOut
  split
  · rename_i hterm
    simp [hterm, marked_none]
  · rename_i hlive
    rw [Bool.not_eq_true] at hlive
    simp only [hlive, true_and]
    split
    · rename_i hs
      simp only [hs, if_true, beginReclaim_excluded]
      exact exclude_excluded (m.note .expired).record .once
    · rename_i hs
      split
      · rename_i hdue
        simp only [hs, hdue, Option.isNone_some, Bool.false_eq_true, if_false, marked_none]
      · rename_i hdue
        simp only [hs, hdue, Option.isNone_none, if_true, beginReclaim_excluded]
        exact exclude_excluded (m.note .lost).record .once
    · rename_i hs
      simp only [hs, Bool.false_eq_true, if_false, marked_none]
      split
      · rfl
      · rw [budgetOrEscalate_excluded]
    · simp only [Bool.false_eq_true, if_false, marked_none, finish_excluded]
    · rename_i timer _ _ hoffer hlease _ _
      have hstill : ¬ runsOut m timer now = true := by
        unfold runsOut
        split
        · exact absurd ‹m.record.state = .offered› (hoffer rfl)
        · exact absurd ‹m.record.state = .running› (hlease rfl)
        · decide
      unfold runsOut at hstill
      rw [if_neg hstill]
      rfl

theorem redispatchByOwner_excluded (m : LeadTaskMachine) (now : Int) :
    (m.redispatchByOwner now).1.record.excluded = marked m.record (entered m (.redispatchByOwner now)) := by
  unfold redispatchByOwner entered
  split
  · rfl
  · split
    · rename_i hs
      simp [hs, marked_none]
    · split
      · rename_i hs
        simp [hs, marked_none]
      · rename_i hc hr
        dsimp only
        rw [if_neg (not_or.mpr ⟨hc, hr⟩)]
        split
        · exact exclude_excluded m.record .once
        · rw [beginReclaim_excluded]
          exact exclude_excluded m.record .once

theorem cancelByUser_excluded (m : LeadTaskMachine) (now : Int) :
    (m.cancelByUser now).1.record.excluded = m.record.excluded := by
  unfold cancelByUser
  split
  · rfl
  · split <;> rfl

/-- **What one event writes.** -/
theorem applyEvent_excluded (m : LeadTaskMachine) (e : Event) :
    (m.applyEvent e).1.record.excluded = marked m.record (entered m e) := by
  have hlive : ∀ (p : Bool) (mark : Option Exclusion),
      (if m.terminal = false ∧ p = true then mark else none)
        = if m.terminal = true then none else if p = true then mark else none := by
    intro p mark
    cases m.terminal <;> simp
  cases e with
  | dispatchTo target offerBody now =>
    simp only [applyEvent, dispatchTo, entered, offerTo_excluded, ite_self, marked_none]
  | redispatchTo target offerBody now =>
    simp only [applyEvent, redispatchTo, entered, offerTo_excluded, ite_self, marked_none]
  | onMessage validate type fromNode attempt body now msgId =>
    rw [entered, ← hlive]
    exact m.onMessage_excluded validate type fromNode body now msgId attempt
  | onTimer timer now =>
    rw [entered, ← hlive]
    exact m.onTimer_excluded timer now
  | cancelByUser now =>
    simp only [applyEvent, entered, cancelByUser_excluded, ite_self, marked_none]
  | redispatchByOwner now => exact m.redispatchByOwner_excluded now

/-- The mark a node carries after an event. -/
theorem applyEvent_scope (m : LeadTaskMachine) (e : Event) (node : String) :
    scopeOf (m.applyEvent e).1.record.excluded node
      = if m.record.hasTarget = some node ∧ (entered m e).isSome = true then entered m e
        else scopeOf m.record.excluded node := by
  rw [applyEvent_excluded, scopeOf_marked]

end LeadTaskMachine

/-! ## Over a run -/

/-- A rejection for good, of the open offer to `node`. -/
def Bans (m : LeadTaskMachine) (e : Event) (node : String) : Prop :=
  m.record.hasTarget = some node ∧ entered m e = some .permanent

/-- The task is taken away from `node` for one round. -/
def Leaves (m : LeadTaskMachine) (e : Event) (node : String) : Prop :=
  m.record.hasTarget = some node ∧ entered m e = some .once

instance (m : LeadTaskMachine) (e : Event) (node : String) : Decidable (Bans m e node) :=
  inferInstanceAs (Decidable (_ ∧ _))

instance (m : LeadTaskMachine) (e : Event) (node : String) : Decidable (Leaves m e node) :=
  inferInstanceAs (Decidable (_ ∧ _))

variable {newer older : List (Entry LeadTaskMachine Occurrence)} {x : Entry LeadTaskMachine Occurrence}
  {m : LeadTaskMachine} {node : String}

/-- A banned node stays banned over a step exactly if the step does not take the task away from it. -/
theorem step_permanent {y : Entry LeadTaskMachine Occurrence} (hstep : machineSystem.step y.pre y.label y.post)
    (hbanned : scopeOf y.pre.record.excluded node = some .permanent) :
    scopeOf y.post.record.excluded node = some .permanent ↔ ¬ Leaves y.pre y.label.event node := by
  have hpost : (y.pre.applyEvent y.label.event).1 = y.post := congrArg Prod.fst hstep
  rw [← hpost, LeadTaskMachine.applyEvent_scope]
  unfold Leaves
  cases hw : entered y.pre y.label.event with
  | none => simp [hbanned]
  | some scope =>
    by_cases ht : y.pre.record.hasTarget = some node
    · cases scope <;> simp [ht]
    · simp [ht, hbanned]

/-- **Permanent exclusion.** After a rejection for good, the node keeps its mark for the rest of the
    run exactly if the task is never again taken away from it. -/
theorem permanent_stays (run : Run machineSystem (newer ++ x :: older) m)
    (hbans : Bans x.pre x.label.event node) :
    (∀ y ∈ newer, scopeOf y.post.record.excluded node = some .permanent) ↔
      ∀ y ∈ newer, ¬ Leaves y.pre y.label.event node := by
  have hset : scopeOf x.post.record.excluded node = some .permanent := by
    have hstep : x.pre.applyEvent x.label.event = (x.post, x.label.actions) :=
      run.step_of_mem x (List.mem_append_right _ List.mem_cons_self)
    have hpost : (x.pre.applyEvent x.label.event).1 = x.post := congrArg Prod.fst hstep
    rw [← hpost, LeadTaskMachine.applyEvent_scope, hbans.2, if_pos ⟨hbans.1, rfl⟩]
  -- where a step begins, the node is banned if the steps since the ban have kept it banned
  have hpre : ∀ between y later, newer = later ++ y :: between →
      (∀ z ∈ between, scopeOf z.pre.record.excluded node = some .permanent →
        scopeOf z.post.record.excluded node = some .permanent) →
      scopeOf y.pre.record.excluded node = some .permanent ∧
        machineSystem.step y.pre y.label y.post := by
    intro between y later hsplit hkeeps
    rw [hsplit, List.append_assoc, List.cons_append] at run
    exact ⟨run.before.since (Q := fun s => scopeOf s.record.excluded node = some .permanent) hset
        fun z hz _ _ => hkeeps z hz,
      run.step_of_mem y (List.mem_append_right _ List.mem_cons_self)⟩
  constructor
  · intro hstays y hy
    obtain ⟨later, between, rfl⟩ := List.append_of_mem hy
    obtain ⟨hbanned, hstep⟩ := hpre between y later rfl fun z hz _ =>
      hstays z (List.mem_append_right _ (List.mem_cons_of_mem _ hz))
    exact (step_permanent hstep hbanned).mp (hstays y hy)
  · intro hnever y hy
    obtain ⟨later, between, hsplit⟩ := List.append_of_mem hy
    obtain ⟨hbanned, hstep⟩ := hpre between y later hsplit fun z hz hban => by
      have hz' : z ∈ newer := hsplit ▸ List.mem_append_right _ (List.mem_cons_of_mem _ hz)
      exact (step_permanent (run.step_of_mem z (List.mem_append_left _ hz')) hban).mpr (hnever z hz')
    exact (step_permanent hstep hbanned).mpr (hnever y hy)

/-! ## A ban that the owner lifts

The node rejects the offer for good; the task waits for the next target, and the owner asks for
another node once more. -/

def rejection : Event :=
  .onMessage (fun _ => true) "task.reject" "b" 1 (.object [("reason_code", some (.str "policy_denied"))]) 20 none

def lifted : List Event := [.redispatchByOwner 30, rejection, .dispatchTo "b" (.obj []) 10]

theorem ban_lifted :
    Run machineSystem (play occur (.create "t" .aid defaultParams) lifted).1
      (play occur (.create "t" .aid defaultParams) lifted).2 ∧
    (play occur (.create "t" .aid defaultParams) (lifted.drop 1)).2.record.excluded = [("b", .permanent)] ∧
    (play occur (.create "t" .aid defaultParams) lifted).2.record.excluded = [("b", .once)] ∧
    (play occur (.create "t" .aid defaultParams) lifted).2.record.state = .drafting :=
  ⟨run_play (S := machineSystem) (f := occur) ⟨"t", .aid, defaultParams, rfl⟩ (fun _ _ => rfl) lifted, by decide,
    by decide, by decide⟩

/-- A task that goes on without the node. -/
def passedOn : List Event :=
  [.onTimer .drain 100, .onTimer .offer_ttl 50, .redispatchTo "c" (.obj []) 30, rejection,
    .dispatchTo "b" (.obj []) 10]

/-- Its history, latest first. -/
def passedOnHistory : List (Entry LeadTaskMachine Occurrence) :=
  (play occur (.create "t" .aid defaultParams) passedOn).1

theorem permanent_stays_passed :
    (passedOnHistory.take 3).all (fun y => scopeOf y.post.record.excluded "b" = some .permanent) = true := by
  have hrun : Run machineSystem passedOnHistory (play occur (.create "t" .aid defaultParams) passedOn).2 :=
    run_play (S := machineSystem) (f := occur) ⟨"t", .aid, defaultParams, rfl⟩ (fun _ _ => rfl) passedOn
  have hstays := (@permanent_stays (passedOnHistory.take 3) (passedOnHistory.drop 4)
    (passedOnHistory.get ⟨3, by decide⟩) _ "b" hrun (by decide)).mpr (by decide)
  rw [List.all_eq_true]
  intro y hy
  exact decide_eq_true (hstays y hy)

end Lead
end Qlong
