import Qlong.Lead.Operations
import Qlong.Node.Calls

/-!
# The lead and the rest of its node

The runs of `leadSystem` interleave the lead's operations, at any clock values, with everything
else that happens around it: calls of the same store by the other parts of the node (the inbox,
the executor, the transport, the reporter), artifact checks that finish, faults of the storage,
restarts. The others never write a lead's keys.
-/

namespace Qlong
namespace Lead

open Lib Node

inductive LeadLabel where
  | op (op : Op)
  /-- A store call of another part of the node. -/
  | elsewhere (call : Call)
  /-- An artifact check staged or withdrew judgements. -/
  | staged (verdicts : List (String × Verdict))
  /-- An operation that failed in the storage, before it committed anything. -/
  | fault
  | restart

/-- A call that leaves the lead's keys alone. -/
def IsForeign (call : Call) : Prop := ∀ key, writesKey call = some key → isLeadKey key = false

def leadSystem (cfg : LeadConfig) : System DurableLead LeadLabel where
  init s := s = { tables := .empty, verdicts := [], faulted := false, sent := [] }
  step s l s' :=
    match l with
    | .op op => s' = Command.after (DurableLead.execute cfg op s)
    | .elsewhere call =>
      IsForeign call ∧ s' = { s with tables := (Node.perform cfg.store s.tables call).2 }
    | .staged verdicts => s' = { s with verdicts }
    | .fault => s' = { s with faulted := true, verdicts := [] }
    | .restart => s' = { s with faulted := false, verdicts := [] }

/-! ## Calls from elsewhere -/

/-- What a call from elsewhere does to the rows the lead owns. -/
structure LeadFrame (t t' : Tables) : Prop where
  state : ∀ key, isLeadKey key = true →
    Table.lookup StateRow.state_key key t'.state = Table.lookup StateRow.state_key key t.state
  effects : ∀ r ∈ t'.effects, isLeadKey r.state_key = true →
    ∃ r0 ∈ t.effects, r0.state_key = r.state_key ∧ r0.kind = r.kind ∧ r0.payload = r.payload

theorem leadFrame_of_write {store : Config} {t t' : Tables} {call : Call} {reply : Reply}
    (h : Write store t call reply t') (hforeign : IsForeign call) : LeadFrame t t' := by
  have hother : ∀ key, isLeadKey key = true → writesKey call ≠ some key := by
    intro key hkey hwrites
    rw [hforeign key hwrites] at hkey
    exact absurd hkey (by simp)
  exact ⟨fun key hkey => h.state_other (hother key hkey),
    fun r hr hkey => h.effects_other hr (hother _ hkey)⟩

/-! ## The rule for runs -/

theorem keyed_of_stored {t t' : Tables} {key : String} {revision : Int} {value : Json}
    {effects : List Json} (h : Stored t key revision value effects t')
    (hk : Table.Keyed StateRow.state_key t.state) : Table.Keyed StateRow.state_key t'.state := by
  rw [h.state]
  exact keyed_upsert hk

theorem Advance.keyed {cfg : LeadConfig} {ok : Trigger → Prop} {s s' : DurableLead}
    (h : Advance cfg ok s s') (hk : Table.Keyed StateRow.state_key s.tables.state) :
    Table.Keyed StateRow.state_key s'.tables.state := by
  cases h with
  | memory => exact hk
  | decided hstate heffects =>
    show Table.Keyed StateRow.state_key _
    rw [hstate]
    exact hk
  | originated hid hnew hst => exact keyed_of_stored hst hk
  | turned hkey hrow hdec hran hok hans hst => exact keyed_of_stored hst hk
  | kept hkey hrow hdec hst => exact keyed_of_stored hst hk
  | archived hvalid htask hok hst => exact keyed_of_stored hst hk
  | imported hvalid htask hlive hok hst => exact keyed_of_stored hst hk

/-- Every operation of the run sets only allowed things in motion. -/
def Allowed (cfg : LeadConfig) (ok : Trigger → Prop) (x : Entry DurableLead LeadLabel) : Prop :=
  ∀ op, x.label = .op op → ∀ tr, Triggers cfg x.pre op tr → ok tr

/-- The step has committed nothing: a call that was refused, or that failed. -/
def CommitsNothing (x : Entry DurableLead LeadLabel) : Prop :=
  x.post.tables = x.pre.tables ∧ x.post.sent = x.pre.sent

theorem step_keyed {cfg : LeadConfig} {x : Entry DurableLead LeadLabel}
    (hstep : (leadSystem cfg).step x.pre x.label x.post)
    (hk : Table.Keyed StateRow.state_key x.pre.tables.state) :
    Table.Keyed StateRow.state_key x.post.tables.state := by
  obtain ⟨pre, label, post⟩ := x
  cases label with
  | op op =>
    simp only [leadSystem] at hstep
    subst hstep
    exact Command.path_keeps (R := Advance cfg fun _ => True)
      (I := fun s => Table.Keyed StateRow.state_key s.tables.state) (fun _ _ h hI => h.keyed hI)
      (DurableLead.execute_path (fun _ _ => trivial) hk) hk
  | elsewhere call =>
    simp only [leadSystem] at hstep
    obtain ⟨-, rfl⟩ := hstep
    exact (perform_write (Prod.ext rfl rfl)).1.keyed hk
  | staged verdicts =>
    simp only [leadSystem] at hstep
    subst hstep
    exact hk
  | fault =>
    simp only [leadSystem] at hstep
    subst hstep
    exact hk
  | restart =>
    simp only [leadSystem] at hstep
    subst hstep
    exact hk

/-- **The invariant rule of the lead.** A property of the lead that its small steps keep, and
    that neither the memory nor the rows of others matter to, holds throughout every run whose
    operations are allowed, if they commit anything. -/
theorem lead_invariant {cfg : LeadConfig} {ok : Trigger → Prop} {I : DurableLead → Prop}
    {hist : List (Entry DurableLead LeadLabel)} {s : DurableLead} (run : Run (leadSystem cfg) hist s)
    (hallowed : ∀ x ∈ hist, CommitsNothing x ∨ Allowed cfg ok x)
    (base : I { tables := .empty, verdicts := [], faulted := false, sent := [] })
    (advance : ∀ s s', Advance cfg ok s s' → I s → I s')
    (frame : ∀ s t', LeadFrame s.tables t' → I s → I { s with tables := t' }) : I s := by
  -- the keys must be known to be distinct, so they are carried along
  have hboth : I s ∧ Table.Keyed StateRow.state_key s.tables.state := by
    refine run.invariant (I := fun s => I s ∧ Table.Keyed StateRow.state_key s.tables.state) ?_ ?_
    · intro s hs
      simp only [leadSystem] at hs
      subst hs
      exact ⟨base, Table.Keyed.nil⟩
    · intro x hx hstep hI
      refine ⟨?_, step_keyed hstep hI.2⟩
      have hok := hallowed x hx
      obtain ⟨pre, label, post⟩ := x
      -- a step that commits nothing moves the memory only, which is a step of its own
      rcases hok with ⟨htables, hsent⟩ | hok
      · obtain ⟨tables, verdicts, faulted, sent⟩ := post
        dsimp only at htables hsent ⊢
        subst htables hsent
        exact advance _ _ .memory hI.1
      cases label with
      | op op =>
        simp only [leadSystem] at hstep
        subst hstep
        exact Command.path_keeps advance (DurableLead.execute_path (hok op rfl) hI.2) hI.1
      | elsewhere call =>
        simp only [leadSystem] at hstep
        obtain ⟨hforeign, rfl⟩ := hstep
        exact frame _ _ (leadFrame_of_write (perform_write (Prod.ext rfl rfl)).1 hforeign) hI.1
      | staged verdicts =>
        simp only [leadSystem] at hstep
        subst hstep
        exact advance _ _ .memory hI.1
      | fault =>
        simp only [leadSystem] at hstep
        subst hstep
        exact advance _ _ .memory hI.1
      | restart =>
        simp only [leadSystem] at hstep
        subst hstep
        exact advance _ _ .memory hI.1
  exact hboth.1

theorem lead_keyed {cfg : LeadConfig} {hist : List (Entry DurableLead LeadLabel)} {s : DurableLead}
    (run : Run (leadSystem cfg) hist s) : Table.Keyed StateRow.state_key s.tables.state := by
  refine run.invariant (I := fun s => Table.Keyed StateRow.state_key s.tables.state) ?_
    fun x _ hstep hk => step_keyed hstep hk
  intro s hs
  simp only [leadSystem] at hs
  subst hs
  exact Table.Keyed.nil

/-! ## A sample lead -/

namespace Sample

/-- A lead on a node of its own, for given digests and instants. -/
def lead (me : Identity) (digests : List (Json × String)) (calendar : List (String × Int))
    (hnode : isUuid me.node_id = true) (hteam : me.team_id ≠ "") : LeadConfig where
  store :=
    { host := .ofTables digests calendar
      nodeId := me.node_id
      maxEntries := 10000
      maxBytes := 64 * 1024 * 1024
      retentionMs := none
      nodeId_uuid := hnode
      maxEntries_ok := Qlong.Sample.entries_ok
      maxBytes_ok := Qlong.Sample.bytes_ok }
  me := me
  params := defaultParams
  validateAcceptance := none
  node_ok := rfl
  team_ok := hteam
  leaseAid_ok := Qlong.Sample.leaseAid_ok
  leaseProject_ok := Qlong.Sample.leaseProject_ok

/-- The `n`-th call, at the time `now`, with a selector. -/
def ambient (n : Nat) (now : Int) (selectTarget : RedispatchRequest → Option (String × Json)) : Ambient where
  stamp k := ⟨now, Qlong.Sample.msg (n + k), Qlong.Sample.task⟩
  effectId := Qlong.Sample.msg (50 + n)
  selectTarget

end Sample

end Lead
end Qlong
