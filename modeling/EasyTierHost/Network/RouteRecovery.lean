import EasyTierHost.Network.RouteSafety

/- The two promises of the route journal, for every run of the controller:
   whatever fails and wherever the process dies, the journal on disk covers
   every change (`route_write_ahead`), and a rollback that collects no error
   puts back exactly what was there (`route_exact_rollback`). -/
namespace EasyTierHost
open Effects GatewayRouteController

variable {D : Type} [DecidableEq D]

/-- A controller that has done nothing yet, with no journal on disk. -/
structure Untouched (w : RouteWorld D) : Prop where
  file : w.file = none
  journal : w.journal = none
  state : w.state = .physicalOnly

/-- Every reply of every step of a run is quiet. -/
def QuietRun (steps : List (Step (RouteReply D) RouteOp)) : Prop :=
  ∀ st ∈ steps, ∀ n, Quiet (st.script n)

/-- What `w₀` has and `w` lacks or has beyond it is in the journal on disk. -/
structure JournalCovers (w₀ w : RouteWorld D) : Prop where
  routes : ∀ r ∈ w.table, r ∉ w₀.table → ∃ j, w.file = some j ∧ r ∈ j.owned
  dns : w.dns ≠ w₀.dns → ∃ j, w.file = some j ∧ j.dnsMayHaveChanged = true
  captured : ∀ j, w.file = some j → j.snapshot.dnsState = some w₀.dns

omit [DecidableEq D] in
theorem Untouched.settled {w₀ : RouteWorld D} (h : Untouched w₀) : Settled w₀.table w₀.dns w₀ := by
  refine ⟨?_, fun _ => h.state, fun hj => by simp [h.journal] at hj⟩
  refine ⟨⟨?_, ?_⟩, ⟨[], by simp, by simp⟩, ?_, ?_, ?_, ?_⟩
  · intro x hx
    cases x with
    | route r => exact absurd hx.1 hx.2
    | dns => exact absurd rfl hx
  · intro s hs
    simp [RouteWorld.log, h.journal] at hs
  · intro j hj
    simp [h.file] at hj
  · intro j hj
    simp [h.journal] at hj
  · intro j hj
    simp [h.journal] at hj
  · intro hs
    simp [h.state] at hs

omit [DecidableEq D] in
theorem RouteInv.covers {w₀ w : RouteWorld D} (h : RouteInv w₀.table w₀.dns w) : JournalCovers w₀ w := by
  have hnamed : ∀ x, x ∈ w.live w₀.table w₀.dns → ∃ j, w.file = some j ∧ x ∈ j.names := by
    intro x hx
    have := h.covered.disk hx
    simp only [RouteWorld.log] at this
    cases hf : w.file with
    | none => rw [hf] at this; exact absurd this (Set.notMem_empty x)
    | some j => rw [hf] at this; exact ⟨j, rfl, this⟩
  refine ⟨fun r hr hr' => hnamed (.route r) ⟨hr, hr'⟩, fun hd => hnamed .dns hd, ?_⟩
  exact fun j hj => (h.file j hj).dns

omit [DecidableEq D] in
theorem Settled.restart {w₀ w : RouteWorld D} (h : RouteInv w₀.table w₀.dns w) :
    Settled w₀.table w₀.dns w.restart :=
  ⟨h.restart, fun _ => rfl, fun hj => by simp [RouteWorld.restart] at hj⟩

/-- Every run keeps the invariant at every moment and settles between operations. -/
theorem route_run {w₀ : RouteWorld D} (h : Untouched w₀) {steps : List (Step (RouteReply D) RouteOp)}
    (hs : QuietRun steps) :
    (∀ m ∈ (routeSystem D).trace w₀ steps, RouteInv w₀.table w₀.dns m.after) ∧
      Settled w₀.table w₀.dns ((routeSystem D).final w₀ steps) := by
  have hop : ∀ st ∈ steps, Keeps Quiet (InvMoment w₀.table w₀.dns) (Settled w₀.table w₀.dns)
      ((routeSystem D).exec st.op) := fun st _ => routeSystem_keeps st.op
  exact System.keeps (fun _ hm => Settled.restart hm) (fun _ hw => Settled.restart hw.inv) steps w₀
    hop hs h.settled

/-- **Write-ahead crash safety.** Over every run from an untouched controller,
with any failures, crashes and restarts: at every moment the journal on disk
covers every route and DNS change. So a fresh controller's `RecoverAsync` that
returns leaves the original table and DNS and no journal file, and a second one
changes nothing. -/
theorem route_write_ahead (w₀ : RouteWorld D) (h : Untouched w₀)
    (steps : List (Step (RouteReply D) RouteOp)) (hs : QuietRun steps) :
    (∀ m ∈ (routeSystem D).trace w₀ steps, JournalCovers w₀ m.after) ∧
    JournalCovers w₀ ((routeSystem D).final w₀ steps) ∧
    ∀ s, (∀ n, Quiet (s n)) →
      (recover s ((routeSystem D).final w₀ steps).restart).result.isOk = true →
      let w := (recover s ((routeSystem D).final w₀ steps).restart).world
      w.table = w₀.table ∧ w.dns = w₀.dns ∧ w.file = none ∧
        ∀ s', (∀ n, Quiet (s' n)) → (recover s' w).world = w := by
  obtain ⟨hmoments, hfinal⟩ := route_run h hs
  refine ⟨fun m hm => (hmoments m hm).covers, hfinal.inv.covers, ?_⟩
  intro s hq hok w
  have hfresh := Settled.restart hfinal.inv
  obtain ⟨_, hend, _⟩ := recover_runs hfresh s hq
  obtain ⟨_, hout, hfile, _⟩ := hend.returned hok
  obtain ⟨htable, hdns⟩ := hout.1.inv.restored hfile
  refine ⟨htable, hdns, hfile, ?_⟩
  intro s' hq'
  obtain ⟨_, hend', _⟩ := recover_runs hout.1 s' hq'
  cases hres : (recover s' w).result with
  | ok _ => rw [hres] at hend'; exact hend'.2.2 hfile
  | error _ => rw [hres] at hend'; exact hend'.2 hfile

/-- An activation the process does not survive. -/
def crashedActivation : List (Step (RouteReply Bool) RouteOp) :=
  [.crash (.activate homeContext) goodScript 40]

theorem homeWorld_untouched : Untouched homeWorld := ⟨rfl, rfl, rfl⟩

theorem crashedActivation_quiet : QuietRun crashedActivation := by
  intro st hst n
  rw [List.mem_singleton.mp hst]
  rfl

/-- The process dies in the middle of an activation; recovery returns. -/
theorem route_write_ahead_crash :
    ((routeSystem Bool).final homeWorld crashedActivation).table ≠ homeWorld.table ∧
    JournalCovers homeWorld ((routeSystem Bool).final homeWorld crashedActivation) ∧
    (recover goodScript ((routeSystem Bool).final homeWorld crashedActivation).restart).world.table =
      homeWorld.table := by
  obtain ⟨_, hcovers, hrecover⟩ :=
    route_write_ahead homeWorld homeWorld_untouched crashedActivation crashedActivation_quiet
  have hok : (recover goodScript ((routeSystem Bool).final homeWorld crashedActivation).restart).result.isOk
      = true := by decide +kernel
  exact ⟨by decide +kernel, hcovers, (hrecover goodScript goodScript_quiet hok).1⟩

/-! ## Exact rollback -/

/-- A rollback on a controller that holds every transaction, when it returns,
leaves everything as it was. -/
theorem rollback_restores {orig : List RouteEntry} {d : D} {w : RouteWorld D} (h : Settled orig d w)
    (hsole : Sole w) {s : Nat → RouteReply D} (hq : ∀ n, Quiet (s n))
    (hok : (rollback s w).result.isOk = true) : Restored orig d (rollback s w).world := by
  obtain ⟨_, hend, _⟩ := rollback_runs h s hq
  obtain ⟨_, hend⟩ := hend.returned hok
  rcases hend with ⟨hj, he⟩ | ⟨_, hback⟩
  · rw [he]
    exact h.inv.toRestored (hsole hj) hj (h.idle hj)
  · exact hback.2.1

omit [DecidableEq D] in
/-- The history variable tells which outcome it was: a rollback without errors. -/
theorem Outcome.clean {orig : List RouteEntry} {d : D} {w w' : RouteWorld D} (h : Outcome orig d w w')
    (hrb : w'.rollbacks = w.rollbacks ++ [0]) : Restored orig d w' := by
  rcases h.2 with ⟨hsame, _⟩ | hback | ⟨e, _, _, es, hes, hrb', _⟩
  · simp [hsame] at hrb
  · exact hback.2.1
  · rw [hrb', List.append_cancel_left_eq] at hrb
    simp [hes] at hrb

omit [DecidableEq D] in
/-- A rollback with errors. -/
theorem Outcome.failed {orig : List RouteEntry} {d : D} {w w' : RouteWorld D} (h : Outcome orig d w w')
    {n : Nat} (hrb : w'.rollbacks = w.rollbacks ++ [n + 1]) : Retained w' := by
  rcases h.2 with ⟨hsame, _⟩ | hback | ⟨e, _, hretained, _⟩
  · simp [hsame] at hrb
  · simp [hback.2.2] at hrb
  · exact hretained

/-- **Exact rollback.** Take any reachable world `w` and any operation on it. An
activation that finds no journal and throws before it has set up its own, an
operation whose rollback collected no error, and a `RollbackAsync` that returns
while a transaction is held in memory all leave exactly the original table and
DNS, no journal file and `PhysicalOnly`. A rollback that collected an error
leaves `Faulted` and the journal, in memory and on disk; whatever the same
controller does after that, a `RollbackAsync` that returns restores everything. -/
theorem route_exact_rollback (w₀ : RouteWorld D) (h : Untouched w₀)
    (steps : List (Step (RouteReply D) RouteOp)) (hs : QuietRun steps) (op : RouteOp)
    (s : Nat → RouteReply D) (hq : ∀ n, Quiet (s n)) :
    let w := (routeSystem D).final w₀ steps
    let r := (routeSystem D).exec op s w
    (∀ context, op = .activate context → w.journal = none → w.file = none →
      r.result.isOk = false → r.world.rollbacks = w.rollbacks → Restored w₀.table w₀.dns r.world) ∧
    (r.world.rollbacks = w.rollbacks ++ [0] → Restored w₀.table w₀.dns r.world) ∧
    (op = .rollback → w.journal.isSome → r.result.isOk = true → Restored w₀.table w₀.dns r.world) ∧
    ∀ n, r.world.rollbacks = w.rollbacks ++ [n + 1] → Retained r.world ∧
      ∀ later, QuietRun later → (∀ st ∈ later, st.completes = true) → ∀ s', (∀ n, Quiet (s' n)) →
        (rollback s' ((routeSystem D).final r.world later)).result.isOk = true →
        Restored w₀.table w₀.dns (rollback s' ((routeSystem D).final r.world later)).world := by
  intro w r
  have hw : Settled w₀.table w₀.dns w := (route_run h hs).2
  have hout : Outcome w₀.table w₀.dns w r.world := (routeSystem_runs op hw s hq).2.1.always
  refine ⟨?_, hout.clean, ?_, ?_⟩
  · intro context hop hj hf hthrew hrb
    subst hop
    obtain ⟨e, hend⟩ := (activate_runs hw s hq).2.1.threw hthrew
    rcases hend with hsame | hback | ⟨_, _, es, _, hrb', _⟩
    · have hidle := hw.inv.toRestored hf hj (hw.idle hj)
      rw [← hsame] at hidle
      exact hidle
    · exact hback.2.1
    · have hsame : w.rollbacks ++ [es.length] = w.rollbacks := hrb'.symm.trans hrb
      simp at hsame
  · intro hop hj hok
    subst hop
    exact rollback_restores hw (fun hnone => by simp [hnone] at hj) hq hok
  · intro n hrb
    have hretained := hout.failed hrb
    refine ⟨hretained, ?_⟩
    intro later hlater hcalls s' hq' hok
    have hsole : Sole r.world := fun hj => absurd hj (Option.isSome_iff_ne_none.mp hretained.journal)
    have hkeeps : ∀ st ∈ later, Keeps Quiet (InvMoment w₀.table w₀.dns)
        (fun w => Settled w₀.table w₀.dns w ∧ Sole w) ((routeSystem D).exec st.op) :=
      fun st _ => routeSystem_keeps_sole st.op
    have hend := System.keeps_calls later r.world hcalls hkeeps hlater ⟨hout.1, hsole⟩
    exact rollback_restores hend.1 hend.2 hq' hok

/-- Replies under which the second route cannot be added and no route can be
deleted: the rollback of the activation fails. -/
def stuckScript : Nat → RouteReply Bool := fun n =>
  if n < 9 then goodReply else { goodReply with applied := false, err := some (.io "denied") }

/-- The activation at home fails half-way, its rollback fails, and a later
`RollbackAsync` restores the machine. -/
theorem route_exact_rollback_retry :
    ((routeSystem Bool).exec (.activate homeContext) stuckScript homeWorld).world.state = .faulted ∧
    Restored homeWorld.table homeWorld.dns (rollback goodScript
      ((routeSystem Bool).exec (.activate homeContext) stuckScript homeWorld).world).world := by
  have hquiet : ∀ n, Quiet (stuckScript n) := by
    intro n
    unfold stuckScript
    split <;> rfl
  have hall := route_exact_rollback homeWorld homeWorld_untouched [] (by simp [QuietRun])
    (.activate homeContext) stuckScript hquiet
  simp only [System.final] at hall
  have hcount : ((routeSystem Bool).exec (.activate homeContext) stuckScript homeWorld).world.rollbacks
      = homeWorld.rollbacks ++ [1 + 1] := by decide +kernel
  obtain ⟨hretained, hlater⟩ := hall.2.2.2 1 hcount
  refine ⟨hretained.state, hlater [] (by simp [QuietRun]) (by simp) goodScript goodScript_quiet ?_⟩
  show (rollback goodScript _).result.isOk = true
  decide +kernel

end EasyTierHost
