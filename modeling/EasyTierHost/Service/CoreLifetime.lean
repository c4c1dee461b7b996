import EasyTierHost.Gateway.GatewayTransaction
import EasyTierHost.Service.Program

/- The lifetime of Core brackets the network changes. Core is stopped only once
   the role task has ended, it is started only while neither journal exists, and
   no two role tasks overlap. The argument for the gateway journal, which the loop
   does not recover, goes through the way a role task ends: one that leaves its
   journal behind has thrown something other than a cancellation, and
   `StopRoleAsync` passes that on, out of the loop. -/
namespace EasyTierHost
open Effects Effects.Prog

/-! ## How the coordinators end -/

section Coordinators
variable {D F : Type} [DecidableEq D] [DecidableEq F]

/-- A `RecoverAsync` of the route controller that returns leaves no journal. -/
theorem routeRecover_clears {w : RouteWorld D} :
    Freely (GatewayRouteController.recover : RouteM D Unit) (fun _ v => v.file = none) (fun _ _ => True) w := by
  refine Runs.seq Runs.trivially (fun _ w₁ _ => ?_)
  refine Runs.bind (Runs.get (Runs.ite (fun _ => ?_) (fun hf => Runs.pure (by simpa using hf))))
  refine Runs.seq Runs.trivially (fun j w₂ _ => ?_)
  refine Runs.bind (Runs.modify (Runs.bind (Runs.get (Runs.bind (Runs.modify ?_)))))
  refine Runs.seq Runs.trivially (fun errors w₃ _ => ?_)
  refine Runs.bind (Runs.modify (Runs.ite (fun _ => ?_) (fun _ => ?_)))
  · exact Runs.bind (Runs.modify (Runs.throw trivial))
  · exact Runs.bind (Runs.effect trivial (Runs.bind (Runs.modify (Runs.modify rfl))))

omit [DecidableEq D] in
theorem onRoutes_runs {α : Type} {w : ClientRole D} {x : RouteM D α} {Q : α → RouteWorld D → Prop}
    {X : Err → RouteWorld D → Prop} (hx : Freely x Q X w.routes) :
    Freely (ClientInternetCoordinator.onRoutes x) (fun a v => Q a v.routes) (fun e v => X e v.routes) w :=
  Runs.zoom hx (fun _ h => h) (fun _ _ h => h) (fun _ _ h => h)

/-- So does the client coordinator's. -/
theorem clientRecover_clears {w : ClientRole D} :
    Freely (ClientInternetCoordinator.recover : ClientInternetCoordinator.CoordinatorM D Unit)
      (fun _ v => v.routes.file = none) (fun _ _ => True) w := by
  have hrecover : Freely (ClientInternetCoordinator.onRoutes GatewayRouteController.recover)
      (fun _ (v : ClientRole D) => v.routes.file = none) (fun _ _ => True) w :=
    onRoutes_runs routeRecover_clears
  refine Runs.seq hrecover (fun _ w₁ h₁ => Runs.bind (Runs.get (Runs.bind ?_)))
  have hreply : Freely GatewayRouteController.reply (fun _ (v : RouteWorld D) => v.file = none) (fun _ _ => True)
      w₁.routes := Runs.bind (Runs.ask (fun _ _ => Runs.bind (Runs.effect trivial (Runs.pure h₁))))
  refine (onRoutes_runs hreply).mono (fun r w₂ h₂ => Runs.bind (Runs.effect trivial ?_)) (fun _ _ h => h)
  refine Runs.outcome (fun _ => ?_) (fun _ _ => trivial)
  split
  · exact h₂
  · exact h₂

omit [DecidableEq F] in
theorem Err.uncancelled_eq {err : Option Err} {e : Err} (h : Err.uncancelled err = some e) :
    e.isCancelled = false := by
  simpa using (Option.filter_eq_some_iff.mp h).2

/-- The gateway's rollback deletes the journal when it returns, and what it throws
is not a cancellation. -/
theorem gatewayRollback_ends {w : GatewayWorld F} :
    Freely (GatewayBootstrapper.rollbackInternal : GatewayM F Unit) (fun _ v => v.file = none)
      (fun e _ => e.isCancelled = false) w := by
  refine Runs.bind (Runs.modify (Runs.bind ?_))
  refine Gateway.rollbackErrors_carries.mono (fun errors w₁ _ => ?_) (fun _ _ h => h)
  refine Runs.bind (Runs.modify (Runs.ite (fun _ => ?_) (fun _ => ?_)))
  · exact Runs.bind (Runs.modify (Runs.throw rfl))
  · refine Runs.bind (Runs.bind (Runs.get (Runs.ite (fun _ => Runs.effect trivial ?_) (fun hf => Runs.pure ?_))))
    · exact Runs.bind (Runs.modify (Runs.modify rfl))
    · exact Runs.bind (Runs.modify (Runs.modify (by simpa using hf)))

theorem gatewayRecover_clears {w : GatewayWorld F} :
    Freely (GatewayBootstrapper.recover : GatewayM F Unit) (fun _ v => v.file = none) (fun _ _ => True) w := by
  refine Runs.seq Runs.trivially (fun _ w₁ _ => ?_)
  refine Runs.bind (Runs.get (Runs.ite (fun _ => ?_) (fun hf => Runs.pure (by simpa using hf))))
  refine Runs.seq Runs.trivially (fun j w₂ _ => ?_)
  refine Runs.bind (Runs.modify (Runs.bind (Runs.get (Runs.bind (Runs.refuse (fun _ => ?_) (fun _ => trivial))))))
  exact gatewayRollback_ends.mono (fun _ _ h => h) (fun _ _ _ => trivial)

section GatewayRole
variable {w : GatewayRole F}

omit [DecidableEq F] in
theorem onServer_runs {α : Type} {x : GatewayM F α} {Q : α → GatewayWorld F → Prop}
    {X : Err → GatewayWorld F → Prop} (hx : Freely x Q X w.server) :
    Freely (GatewayCoordinator.onServer x) (fun a v => Q a v.server) (fun e v => X e v.server) w :=
  Runs.zoom hx (fun _ h => h) (fun _ _ h => h) (fun _ _ h => h)

omit [DecidableEq F] in
/-- Disposing of the DNS runtime does not touch the journal. -/
theorem disposeDns_runs {P : Option (GatewayJournal F) → Prop} (h : P w.server.file) :
    Freely GatewayCoordinator.disposeDns (fun _ v => P v.server.file)
      (fun e v => e.isCancelled = false ∧ P v.server.file) w := by
  have hafter : ∀ r : GatewayReply F, P (if r.applied ∨ r.err.isNone then
      { w with server := { w.server with dns := false } } else w).server.file := by
    intro r
    split
    · exact h
    · exact h
  refine Runs.bind (Runs.ask (fun r _ => Runs.bind (Runs.effect trivial ?_)))
  exact Runs.outcome (fun _ => hafter r) (fun e he => ⟨Err.uncancelled_eq he, hafter r⟩)

theorem gatewayCoordinator_recover_clears (platform : String) :
    Freely (GatewayCoordinator.recover platform) (fun _ (v : GatewayRole F) => v.server.file = none)
      (fun _ _ => True) w := by
  have hrecover : Freely (do modify (GatewayWorld.renew platform); GatewayBootstrapper.recover)
      (fun _ (v : GatewayWorld F) => v.file = none) (fun _ _ => True) w.server :=
    Runs.bind (Runs.modify gatewayRecover_clears)
  refine Runs.andFinally ((onServer_runs hrecover).mono (fun _ v h => ?_) (fun _ v _ => ?_))
  · exact (disposeDns_runs (P := fun file => file = none) h).mono (fun _ _ h => h) (fun _ _ _ => trivial)
  · exact Runs.trivially

/-- The finally block of the gateway's `RunAsync`. -/
theorem gatewayShutdown_ends :
    Freely GatewayCoordinator.shutdown (fun _ (v : GatewayRole F) => v.server.file = none)
      (fun e _ => e.isCancelled = false) w := by
  have hrollback : Freely (GatewayCoordinator.onServer GatewayBootstrapper.rollbackInternal)
      (fun _ (v : GatewayRole F) => v.server.file = none) (fun e _ => e.isCancelled = false) w :=
    onServer_runs gatewayRollback_ends
  refine Runs.andFinally (hrollback.mono (fun _ v h => ?_) (fun e v h => ?_))
  · refine Runs.bind (Runs.get (Runs.bind (Runs.ask (fun r _ => Runs.bind (Runs.effect trivial ?_)))))
    refine Runs.outcome (fun _ => ?_) (fun e he => Err.uncancelled_eq he)
    split
    · exact h
    · exact h
  · refine Runs.bind (Runs.get (Runs.bind (Runs.ask (fun r _ => Runs.bind (Runs.effect trivial ?_)))))
    exact Runs.outcome (fun _ => h) (fun e he => Err.uncancelled_eq he)

/-- A gateway role task that is cancelled leaves no journal; whatever else ends it
may. -/
theorem gatewayCoordinator_run_ends (platform : String) (passes : Nat) (physical : RouteSnapshot Unit)
    (overlay : GatewayAdapter) (h : w.server.file = none) :
    Freely (GatewayCoordinator.run platform passes physical overlay)
      (fun _ (v : GatewayRole F) => v.server.file = none)
      (fun e v => e.isCancelled = true → v.server.file = none) w := by
  have hconsult : Freely GatewayCoordinator.consult (fun _ v => v.server.file = none)
      (fun _ (v : GatewayRole F) => v.server.file = none) w := by
    have hquery : Freely (GatewayBootstrapper.query (fun _ _ => ())) (fun _ (v : GatewayWorld F) => v.file = none)
        (fun _ v => v.file = none) w.server := Gateway.query_runs (fun _ _ => h) (fun _ => h)
    exact onServer_runs hquery
  have hrenew : ∀ w₁, Freely (GatewayCoordinator.onServer (modify (GatewayWorld.renew platform)))
      (fun _ (_ : GatewayRole F) => True) (fun _ _ => False) w₁ := fun _ =>
    onServer_runs (Q := fun _ _ => True) (X := fun _ _ => False) (Runs.modify trivial)
  have hdispose : ∀ (e : Err) (v : GatewayRole F), (e.isCancelled = true → v.server.file = none) →
      Freely GatewayCoordinator.disposeDns (fun _ v => e.isCancelled = true → v.server.file = none)
        (fun e v => e.isCancelled = true → v.server.file = none) v := by
    intro e v hv
    refine (disposeDns_runs (P := fun file => e.isCancelled = true → file = none) hv).mono (fun _ _ h => h) ?_
    intro e' _ h' hc
    rw [h'.1] at hc
    simp at hc
  refine Runs.bind (hconsult.mono (fun _ w₁ _ => Runs.bind ?_) (fun _ _ h _ => h))
  refine (hrenew w₁).mono (fun _ w₂ _ => ?_) (fun _ _ h => h.elim)
  -- whatever the try block came to, the finally block has the last word
  refine Runs.andFinally (Runs.andFinally (Runs.trivially.mono (fun _ w₃ _ => ?_) (fun e w₃ _ => ?_)))
  · refine gatewayShutdown_ends.mono (fun _ v hv => ?_) (fun e v he => hdispose e v (fun hc => by simp [he] at hc))
    refine (disposeDns_runs (P := fun file => file = none) hv).mono (fun _ _ h => h) ?_
    exact fun e _ h _ => h.2
  · exact gatewayShutdown_ends.mono (fun _ v hv => hdispose e v (fun _ => hv))
      (fun e' v he => hdispose e' v (fun hc => by simp [he] at hc))

end GatewayRole

end Coordinators

/-! ## Role tasks beside the supervisor -/

/-- Every role task has ended. -/
def AllDone {D F : Type} (w : HostWorld D F) : Prop := ∀ t ∈ w.roles, t.finished = true

/-- At most one role task is unfinished. -/
def AtMostOne {D F : Type} (w : HostWorld D F) : Prop := (w.roles.filter (fun t => !t.finished)).length ≤ 1

/-- Every role task has ended and there is no gateway journal. -/
def Clear {D F : Type} (w : HostWorld D F) : Prop := AllDone w ∧ w.gateway.server.file = none

/-- `IsFaulted`, as opposed to cancelled or completed. -/
def faulted : Except Err Unit → Bool
  | .ok _ => false
  | .error e => !e.isCancelled

/-- What the latest role task will leave of the gateway journal. -/
def Promise {D F : Type} (w : HostWorld D F) : RoleTask D F → Prop
  | .client _ _ => w.gateway.server.file = none
  | .gateway remaining result => faulted result = false → (remaining.getLastD w.gateway).server.file = none

/-- Of the role tasks only the latest may be unfinished, and it keeps its promise. -/
def Running {D F : Type} (w : HostWorld D F) : Prop :=
  ∃ task earlier, w.roles = task :: earlier ∧ (∀ t ∈ earlier, t.finished = true) ∧ Promise w task

/-- Within an iteration, before its role task is started or after. -/
def Within {D F : Type} (w : HostWorld D F) : Prop :=
  (w.roleTask = false ∧ Clear w) ∨ (w.roleTask = true ∧ Running w)

/-- What every moment of a run satisfies. -/
structure HostMoment {D F : Type} (m : Moment HostEvent (HostWorld D F)) : Prop where
  stop : m.event = .stopCore → AllDone m.before
  start : m.event = .startCore →
    m.before.client.routes.file = none ∧ m.before.gateway.server.file = none
  recover : m.event = .recoverRoutes ∨ m.event = .recoverGateway → AllDone m.before
  single : AtMostOne m.before ∧ AtMostOne m.after

/-- A part of the supervisor, under any replies, passing only through such moments. -/
abbrev Supervised {D F α : Type} (x : HostM D F α) (Q : α → HostWorld D F → Prop)
    (X : Err → HostWorld D F → Prop) (w : HostWorld D F) : Prop :=
  Runs (fun _ => True) HostMoment x Q X w

section Roles
variable {D F : Type} {w : HostWorld D F}

theorem AllDone.atMostOne (h : AllDone w) : AtMostOne w := by
  have hnone : w.roles.filter (fun t => !t.finished) = [] := by
    refine List.filter_eq_nil_iff.mpr (fun t ht => ?_)
    simp [h t ht]
  rw [AtMostOne, hnone]
  exact Nat.zero_le 1

theorem Running.atMostOne (h : Running w) : AtMostOne w := by
  obtain ⟨task, earlier, hroles, hearlier, _⟩ := h
  have hnone : earlier.filter (fun t => !t.finished) = [] := by
    refine List.filter_eq_nil_iff.mpr (fun t ht => ?_)
    simp [hearlier t ht]
  rw [AtMostOne, hroles, List.filter_cons, hnone]
  split
  · exact Nat.le_refl 1
  · exact Nat.zero_le 1

theorem Within.atMostOne (h : Within w) : AtMostOne w := by
  rcases h with ⟨_, hclear⟩ | ⟨_, hrunning⟩
  · exact hclear.1.atMostOne
  · exact hrunning.atMostOne

/-- A finished task has no next effect. -/
theorem roleStep_finished {i : Nat} (h : ∀ t, w.roles[i]? = some t → t.finished = true) : w.roleStep i = w := by
  unfold HostWorld.roleStep
  split
  · next heq => exact absurd (h _ heq) (by simp [RoleTask.finished, RoleTask.steps])
  · next heq => exact absurd (h _ heq) (by simp [RoleTask.finished, RoleTask.steps])
  · rfl

theorem AllDone.roleStep (h : AllDone w) (i : Nat) : w.roleStep i = w :=
  roleStep_finished (fun t ht => h t (List.mem_of_getElem? ht))

/-- The latest task moves on. -/
theorem roleStep_latest {task : RoleTask D F} {earlier : List (RoleTask D F)} (hroles : w.roles = task :: earlier)
    (hpromise : Promise w task) :
    ∃ task', (w.roleStep 0).roles = task' :: earlier ∧ task'.steps = task.steps - 1 ∧
      task'.result = task.result ∧ Promise (w.roleStep 0) task' := by
  unfold HostWorld.roleStep
  rw [hroles, List.getElem?_cons_zero]
  cases task with
  | client remaining result =>
    cases remaining with
    | nil => exact ⟨_, hroles, rfl, rfl, hpromise⟩
    | cons v rest => exact ⟨.client rest result, rfl, rfl, rfl, hpromise⟩
  | gateway remaining result =>
    cases remaining with
    | nil => exact ⟨_, hroles, rfl, rfl, hpromise⟩
    | cons v rest =>
      refine ⟨.gateway rest result, rfl, rfl, rfl, ?_⟩
      intro hf
      have hlast := hpromise hf
      rw [List.getLastD_cons] at hlast
      exact hlast

theorem Running.roleStep (h : Running w) (i : Nat) : Running (w.roleStep i) := by
  obtain ⟨task, earlier, hroles, hearlier, hpromise⟩ := h
  cases i with
  | zero =>
    obtain ⟨task', hroles', _, _, hpromise'⟩ := roleStep_latest hroles hpromise
    exact ⟨task', earlier, hroles', hearlier, hpromise'⟩
  | succ i =>
    -- an earlier task has nothing left to do
    have hsame : w.roleStep (i + 1) = w := by
      refine roleStep_finished (fun t ht => hearlier t ?_)
      rw [hroles, List.getElem?_cons_succ] at ht
      exact List.mem_of_getElem? ht
    rw [hsame]
    exact ⟨task, earlier, hroles, hearlier, hpromise⟩

/-- A promise is kept once the task is over. -/
theorem Promise.kept {task : RoleTask D F} (h : Promise w task) (hdone : task.steps = 0)
    (hf : faulted task.result = false) : w.gateway.server.file = none := by
  cases task with
  | client remaining result => exact h
  | gateway remaining result =>
    have hnil : remaining = [] := List.length_eq_zero_iff.mp hdone
    subst hnil
    exact h hf

@[simp] theorem roleStep_roleTask (i : Nat) : (w.roleStep i).roleTask = w.roleTask := by
  unfold HostWorld.roleStep
  split <;> rfl

theorem Within.roleStep (h : Within w) (i : Nat) : Within (w.roleStep i) := by
  rcases h with ⟨hr, hclear⟩ | ⟨hr, hrunning⟩
  · rw [hclear.1.roleStep i]
    exact Or.inl ⟨hr, hclear⟩
  · exact Or.inr ⟨by rw [roleStep_roleTask, hr], hrunning.roleStep i⟩

end Roles

/-! ## The supervisor's calls -/

section Calls
variable {D F : Type} {w : HostWorld D F} {X : Err → HostWorld D F → Prop}

/-- Waiting keeps what the role tasks and a cancellation keep. -/
theorem tick_runs {J : HostWorld D F → Prop} (hobserve : ∀ w c, J w → J (w.observe c))
    (hstep : ∀ w i, J w → J (w.roleStep i)) (hone : ∀ w, J w → AtMostOne w)
    {Q : HostReply D F → HostWorld D F → Prop} (h : J w) (hQ : ∀ r w', J w' → Q r w') :
    Supervised Program.tick Q X w := by
  have hmoment : ∀ w i, J w → HostMoment ⟨.role i, w, w.roleStep i⟩ := fun w i hw =>
    ⟨by simp, by simp, by simp, hone w hw, hone _ (hstep w i hw)⟩
  refine Runs.bind (Runs.ask (fun r _ => Runs.bind (Runs.modify (Runs.bind ?_))))
  have hloop : Supervised (each (fun i => effect (.role i) (HostWorld.roleStep i)) r.schedule) (fun _ => J) X
      (w.observe r.cancel) :=
    Runs.each_inv (fun i _ v hv => Runs.effect (hmoment v i hv) (hstep v i hv)) (hobserve w r.cancel h)
  exact hloop.mono (fun _ v hv => Runs.pure (hQ r v hv)) (fun _ _ hx => hx)

/-- With every task ended, waiting changes nothing but the tokens. -/
theorem tick_done {Q : HostReply D F → HostWorld D F → Prop} (h : AllDone w)
    (hQ : ∀ r ct iteration, Q r { w with ct := ct, iteration := iteration }) :
    Supervised Program.tick Q X w := by
  refine tick_runs (J := fun v => ∃ ct iteration, v = { w with ct := ct, iteration := iteration }) ?_ ?_ ?_
    ⟨w.ct, w.iteration, rfl⟩ ?_
  · intro v c hgiven
    obtain ⟨ct, iteration, rfl⟩ := hgiven
    exact ⟨_, _, rfl⟩
  · intro v i hgiven
    obtain ⟨ct, iteration, rfl⟩ := hgiven
    exact ⟨ct, iteration, AllDone.roleStep (w := { w with ct := ct, iteration := iteration }) h i⟩
  · intro v hgiven
    obtain ⟨ct, iteration, rfl⟩ := hgiven
    exact AllDone.atMostOne (w := { w with ct := ct, iteration := iteration }) h
  · intro r v hgiven
    obtain ⟨ct, iteration, rfl⟩ := hgiven
    exact hQ r ct iteration

theorem tick_within {Q : HostReply D F → HostWorld D F → Prop} (h : Within w)
    (hQ : ∀ r w', Within w' → w'.roleTask = w.roleTask → Q r w') :
    Supervised Program.tick Q X w :=
  tick_runs (J := fun v => Within v ∧ v.roleTask = w.roleTask) (fun _ _ hv => hv)
    (fun v i hv => ⟨hv.1.roleStep i, by rw [roleStep_roleTask, hv.2]⟩) (fun _ hv => hv.1.atMostOne) ⟨h, rfl⟩
    (fun r v hv => hQ r v hv.1 hv.2)

/-- How awaiting the latest role task ends. -/
theorem awaitRole_runs (h : Within w) (hr : w.roleTask = true) :
    Supervised Program.awaitRole (fun _ v => v.roleTask = true ∧ Running v ∧ Clear v)
      (fun e v => v.roleTask = true ∧ Running v ∧ AllDone v ∧ (e.isCancelled = true → Clear v)) w := by
  refine Runs.bind (tick_within h (fun r w₁ h₁ hr₁ => Runs.bind (Runs.get ?_)))
  rw [hr] at hr₁
  obtain ⟨task, earlier, hroles, hearlier, hpromise⟩ : Running w₁ := by
    rcases h₁ with ⟨hno, _⟩ | ⟨_, hrunning⟩
    · rw [hr₁] at hno
      simp at hno
    · exact hrunning
  rw [hroles]
  -- after the steps in `done`, that many fewer are left
  refine Runs.bind (Runs.mono (Runs.each_prefix
    (J := fun done v => v.roleTask = true ∧ ∃ task', v.roles = task' :: earlier ∧
      task'.steps = task.steps - done.length ∧ task'.result = task.result ∧ Promise v task') ?_ ?_) ?_
    (fun _ _ hx => hx))
  · intro done b left hl v hgiven
    obtain ⟨hv, task', hroles', hsteps, hresult, hpromise'⟩ := hgiven
    have hrunning : Running v := ⟨task', earlier, hroles', hearlier, hpromise'⟩
    refine Runs.effect ⟨by simp, by simp, by simp, hrunning.atMostOne, (hrunning.roleStep 0).atMostOne⟩ ?_
    obtain ⟨task'', hroles'', hsteps'', hresult'', hpromise''⟩ := roleStep_latest hroles' hpromise'
    refine ⟨by rw [roleStep_roleTask, hv], task'', hroles'', ?_, hresult''.trans hresult, hpromise''⟩
    rw [hsteps'', hsteps, List.length_append, List.length_singleton]
    omega
  · exact ⟨hr₁, task, hroles, by simp, rfl, hpromise⟩
  · intro _ v hgiven
    obtain ⟨hv, task', hroles', hsteps, hresult, hpromise'⟩ := hgiven
    rw [List.length_range, Nat.sub_self] at hsteps
    have hrunning : Running v := ⟨task', earlier, hroles', hearlier, hpromise'⟩
    have hdone : AllDone v := by
      intro t ht
      rw [hroles', List.mem_cons] at ht
      rcases ht with rfl | ht
      · simp [RoleTask.finished, hsteps]
      · exact hearlier t ht
    have hkept : faulted task.result = false → Clear v := by
      intro hf
      rw [← hresult] at hf
      exact ⟨hdone, hpromise'.kept hsteps hf⟩
    refine Runs.ofExcept (fun a ha => ⟨hv, hrunning, hkept (by rw [ha]; rfl)⟩) (fun e he => ?_)
    exact ⟨hv, hrunning, hdone, fun hc => hkept (by rw [he]; simp [faulted, hc])⟩

/-- Once a cancellation is ignored, awaiting the task that returns leaves no gateway
journal. -/
theorem ignoreCancelled_runs (h : Within w) (hr : w.roleTask = true) :
    Supervised (Program.ignoreCancelled Program.awaitRole) (fun _ v => v.roleTask = true ∧ Running v ∧ Clear v)
      (fun _ v => v.roleTask = true ∧ Running v ∧ AllDone v) w := by
  refine Runs.tryCatch ((awaitRole_runs h hr).mono (fun _ _ hv => hv) (fun e v hv => ?_))
  obtain ⟨hrole, hrunning, hdone, hclear⟩ := hv
  refine Runs.bind (Runs.get (Runs.ite (fun hc => Runs.pure ?_) (fun _ => Runs.throw ?_)))
  · exact ⟨hrole, hrunning, hclear hc.1⟩
  · exact ⟨hrole, hrunning, hdone⟩

theorem stopCore_runs {P : HostWorld D F → Prop} (hdone : AllDone w)
    (hP : ∀ ct iteration, P { w with ct := ct, iteration := iteration }) :
    Supervised Program.stopCore (fun _ => P) (fun _ => P) w := by
  refine Runs.bind (tick_done hdone (fun r ct iteration => Runs.bind (Runs.effect ?_ ?_)))
  · have hone := AllDone.atMostOne (w := { w with ct := ct, iteration := iteration }) hdone
    exact ⟨fun _ => hdone, by simp, by simp, hone, hone⟩
  · exact Runs.outcome (fun _ => hP ct iteration) (fun _ _ => hP ct iteration)

/-- `StopRoleAsync` stops Core once the role task has ended, and returns only if no
gateway journal is left. -/
theorem stopRole_runs (h : Within w) :
    Supervised Program.stopRole (fun _ => Clear) (fun _ => AllDone) w := by
  have hcancel : Within { w with iteration := true } := h
  refine Runs.andFinally (Runs.bind (Runs.bind (Runs.modify (Runs.bind ?_))))
  refine tick_within hcancel (fun r w₁ h₁ _ => Runs.pure (Runs.bind (Runs.get (Runs.ite (fun hr => ?_) (fun hr => ?_)))))
  · refine (ignoreCancelled_runs h₁ hr).mono (fun _ v hv => ?_) (fun _ v hv => ?_)
    · exact (stopCore_runs hv.2.2.1 (fun _ _ => hv.2.2)).mono (fun _ _ hc => hc) (fun _ _ hc => hc.1)
    · exact (stopCore_runs hv.2.2 (fun _ _ => hv.2.2)).mono (fun _ _ hc => hc) (fun _ _ hc => hc)
  · refine Runs.pure ?_
    rcases h₁ with ⟨_, hclear⟩ | ⟨hyes, _⟩
    · exact (stopCore_runs hclear.1 (fun _ _ => hclear)).mono (fun _ _ hc => hc) (fun _ _ hc => hc.1)
    · exact absurd hyes hr

end Calls

/-! ## The loop -/

section Loop
variable {D F : Type} [DecidableEq D] [DecidableEq F] {w : HostWorld D F} {p : NetworkProfile} {platform : String}

omit [DecidableEq D] [DecidableEq F] in
theorem HostMoment.of_done {event : HostEvent} {v : HostWorld D F} (h : AllDone w) (h' : AllDone v)
    (hs : event ≠ .startCore) : HostMoment ⟨event, w, v⟩ :=
  ⟨fun _ => h, fun he => absurd he hs, fun _ => h, h.atMostOne, h'.atMostOne⟩

omit [DecidableEq F] in
/-- `clientInternet.RecoverAsync`: when it returns there is no route journal. -/
theorem recoverClient_runs (h : AllDone w) {Q : Unit → HostWorld D F → Prop} {X : Err → HostWorld D F → Prop}
    (hQ : ∀ client ct iteration, client.routes.file = none →
      Q () { w with client := client, ct := ct, iteration := iteration })
    (hX : ∀ e client ct iteration, X e { w with client := client, ct := ct, iteration := iteration }) :
    Supervised Program.recoverClient Q X w := by
  refine Runs.bind (tick_done h (fun r ct iteration => Runs.bind (Runs.get (Runs.bind (Runs.effect ?_ ?_)))))
  · exact HostMoment.of_done (w := { w with ct := ct, iteration := iteration }) h h (by simp)
  · have hend := (clientRecover_clears (w := w.client) r.plan.routeScript (fun _ => trivial)).2.1
    refine Runs.ofExcept (fun a ha => hQ _ ct iteration ?_) (fun e _ => hX e _ ct iteration)
    rw [ha] at hend
    exact hend

omit [DecidableEq D] in
theorem recoverGateway_runs (h : AllDone w) {Q : Unit → HostWorld D F → Prop} {X : Err → HostWorld D F → Prop}
    (hQ : ∀ gateway ct iteration, gateway.server.file = none →
      Q () { w with gateway := gateway, ct := ct, iteration := iteration })
    (hX : ∀ e gateway ct iteration, X e { w with gateway := gateway, ct := ct, iteration := iteration }) :
    Supervised (Program.recoverGateway platform) Q X w := by
  refine Runs.bind (tick_done h (fun r ct iteration => Runs.bind (Runs.get (Runs.bind (Runs.effect ?_ ?_)))))
  · exact HostMoment.of_done (w := { w with ct := ct, iteration := iteration }) h h (by simp)
  · have hend := (gatewayCoordinator_recover_clears (w := w.gateway) platform r.plan.gatewayScript (fun _ => trivial)).2.1
    refine Runs.ofExcept (fun a ha => hQ _ ct iteration ?_) (fun e _ => hX e _ ct iteration)
    rw [ha] at hend
    exact hend

omit [DecidableEq D] [DecidableEq F] in
/-- Starting a task beside finished ones. -/
theorem startTask_runs {task : HostWorld D F → RoleTask D F} (h : AllDone w)
    (hpromise : Promise w (task w)) {X : Err → HostWorld D F → Prop} :
    Supervised (effect .startRole (fun w => { w with roleTask := true, roles := task w :: w.roles }))
      (fun _ => Within) X w := by
  have hrunning : Running { w with roleTask := true, roles := task w :: w.roles } := by
    refine ⟨task w, w.roles, rfl, h, ?_⟩
    cases htask : task w with
    | client remaining result => rw [htask] at hpromise; exact hpromise
    | gateway remaining result => rw [htask] at hpromise; exact hpromise
  exact Runs.effect ⟨by simp, by simp, by simp, h.atMostOne, hrunning.atMostOne⟩ (Or.inr ⟨rfl, hrunning⟩)

/-- The role task that an iteration starts keeps its promise. -/
theorem startRole_runs (h : Clear w) (hr : w.roleTask = false) :
    Supervised (Program.startRole p platform) (fun _ => Within) (fun _ => Within) w := by
  refine Runs.bind (tick_done h.1 (fun r ct iteration => Runs.ite (fun _ => ?_) (fun _ => Runs.ite (fun _ => ?_)
    (fun _ => Runs.pure (Or.inl ⟨hr, h⟩)))))
  · refine startTask_runs (w := { w with ct := ct, iteration := iteration }) h.1 ?_
    intro hf
    have hend := (gatewayCoordinator_run_ends platform r.plan.passes r.plan.physical r.plan.overlay h.2
      r.plan.gatewayScript (fun _ => trivial)).2.1
    rw [List.getLastD_concat]
    revert hf hend
    cases (GatewayCoordinator.run platform r.plan.passes r.plan.physical r.plan.overlay r.plan.gatewayScript
      w.gateway).result with
    | ok a => exact fun _ hend => hend
    | error e => exact fun hf hend => hend (by simpa [faulted] using hf)
  · refine startTask_runs (w := { w with ct := ct, iteration := iteration }) h.1 ?_
    exact h.2

omit [DecidableEq D] [DecidableEq F] in
theorem attend_runs {P : HostWorld D F → Prop} (h : AllDone w)
    (hP : ∀ ct iteration, P { w with ct := ct, iteration := iteration }) :
    Supervised Program.attend (fun _ => P) (fun _ => P) w :=
  Runs.bind (tick_done h (fun _ ct iteration => Runs.outcome (fun _ => hP ct iteration) (fun _ _ => hP ct iteration)))

omit [DecidableEq D] [DecidableEq F] in
theorem awaitExit_runs (h : Within w) :
    Supervised Program.awaitExit (fun _ v => Within v ∧ v.roleTask = w.roleTask) (fun _ => Within) w := by
  refine Runs.bind (tick_within h (fun r w₁ h₁ hr₁ => Runs.bind ?_))
  exact Runs.outcome (fun _ => Runs.pure ⟨h₁, hr₁⟩) (fun _ _ => h₁)

omit [DecidableEq D] [DecidableEq F] in
theorem awaitEither_runs (h : Within w) (hr : w.roleTask = true) :
    Supervised Program.awaitEither (fun _ => Within) (fun _ => Within) w := by
  refine Runs.bind (tick_within h (fun r w₁ h₁ hr₁ => ?_))
  rw [hr] at hr₁
  refine Runs.ite (fun _ => Runs.bind ?_) (fun _ => Runs.bind ?_)
  · refine (awaitRole_runs h₁ hr₁).mono (fun _ v hv => Runs.throw (Or.inr ⟨hv.1, hv.2.1⟩)) ?_
    exact fun _ v hv => Or.inr ⟨hv.1, hv.2.1⟩
  · refine (awaitExit_runs h₁).mono (fun code w₂ h₂ => Runs.bind ?_) (fun _ _ hv => hv)
    have hr₂ : w₂.roleTask = true := h₂.2.trans hr₁
    have hcancel : Within { w₂ with iteration := true } := h₂.1
    refine Runs.bind (Runs.modify (Runs.bind (tick_within hcancel (fun _ w₃ h₃ hr₃ => Runs.pure (Runs.bind ?_)))))
    exact (ignoreCancelled_runs h₃ (hr₃.trans hr₂)).mono (fun _ v hv => Runs.pure (Or.inr ⟨hv.1, hv.2.1⟩))
      (fun _ v hv => Or.inr ⟨hv.1, hv.2.1⟩)

omit [DecidableEq D] [DecidableEq F] in
theorem saveStatus_runs {status : HostStatus} (h : AllDone w) {Q : Unit → HostWorld D F → Prop}
    {X : Err → HostWorld D F → Prop}
    (hQ : ∀ ct iteration, Q () { w with ct := ct, iteration := iteration, status := some status })
    (hX : ∀ e ct iteration saved, X e { w with ct := ct, iteration := iteration, status := saved }) :
    Supervised (Program.saveStatus status) Q X w := by
  refine Runs.bind (tick_done h (fun r ct iteration => Runs.bind (Runs.effect ?_ (Runs.outcome ?_ ?_))))
  · refine HostMoment.of_done (w := { w with ct := ct, iteration := iteration }) h ?_ (by simp)
    split
    · exact h
    · exact h
  · intro he
    rw [if_pos (by simp [he])]
    exact hQ ct iteration
  · intro e _
    split
    · exact hX e ct iteration _
    · exact hX e ct iteration _

/-- Core may be started: no role task, no journal. -/
def Ready {D F : Type} (w : HostWorld D F) : Prop :=
  w.roleTask = false ∧ Clear w ∧ w.client.routes.file = none

omit [DecidableEq D] [DecidableEq F] in
theorem Ready.within (h : Ready w) : Within w := Or.inl ⟨h.1, h.2.1⟩

omit [DecidableEq D] [DecidableEq F] in
theorem startCore_runs (h : Ready w) : Supervised Program.startCore (fun _ => Ready) (fun _ => Ready) w := by
  obtain ⟨hr, hclear, hfile⟩ := h
  refine Runs.bind (tick_done hclear.1 (fun _ ct iteration => Runs.bind (Runs.effect ?_ ?_)))
  · have hone := AllDone.atMostOne (w := { w with ct := ct, iteration := iteration }) hclear.1
    exact ⟨by simp, fun _ => ⟨hfile, hclear.2⟩, by simp, hone, hone⟩
  · exact Runs.outcome (fun _ => ⟨hr, hclear, hfile⟩) (fun _ _ => ⟨hr, hclear, hfile⟩)

/-- The try block of an iteration once the routes are recovered. -/
theorem launchReady_runs (h : Ready w) :
    Supervised (do
      Program.startCore
      Program.saveStatus (Program.startingStatus p)
      Program.startRole p platform
      if (← get).roleTask then Program.awaitEither else Program.awaitExit) (fun _ => Within) (fun _ => Within) w := by
  refine Runs.bind ((startCore_runs h).mono (fun _ w₁ h₁ => ?_) (fun _ _ hv => hv.within))
  have hkept : ∀ ct iteration status, Ready { w₁ with ct := ct, iteration := iteration, status := status } :=
    fun _ _ _ => h₁
  refine Runs.bind (saveStatus_runs h₁.2.1.1 (fun ct iteration => ?_) (fun _ ct iteration saved => ?_))
  · have hready := hkept ct iteration (some (Program.startingStatus p))
    refine Runs.seq (startRole_runs hready.2.1 hready.1) (fun _ w₂ h₂ => ?_)
    refine Runs.bind (Runs.get (Runs.ite (fun hr => awaitEither_runs h₂ hr) (fun _ => ?_)))
    exact (awaitExit_runs h₂).mono (fun _ _ hv => hv.1) (fun _ _ hv => hv)
  · exact (hkept ct iteration saved).within

theorem launch_runs (h : Clear w) (hr : w.roleTask = false) :
    Supervised (Program.launch p platform) (fun _ => Within) (fun _ => Within) w := by
  refine Runs.bind (recoverClient_runs h.1 (fun client ct iteration hfile => ?_)
    (fun _ _ _ _ => Or.inl ⟨hr, h⟩))
  have hready : ∀ ct iteration, Ready { w with client := client, ct := ct, iteration := iteration } :=
    fun _ _ => ⟨hr, h, hfile⟩
  refine Runs.ite (fun _ => Runs.bind ?_) (fun _ => launchReady_runs (hready ct iteration))
  have hattend := attend_runs (w := { w with client := client, ct := ct, iteration := iteration }) h.1 hready
  exact hattend.mono (fun _ _ hv => launchReady_runs hv) (fun _ _ hv => hv.within)

/-- One iteration: when it goes on to the next one, every role task has ended and no
gateway journal is left. -/
theorem iteration_runs (h : Clear w) :
    Supervised (Program.iteration p platform) (fun _ => Clear) (fun _ => AllDone) w := by
  have hbegin : Clear { w with iteration := w.ct, roleTask := false } := h
  refine Runs.bind (Runs.modify (Runs.bind ?_))
  have hguarded : Supervised (tryCatch (Program.launch p platform) Program.caught) (fun _ => Within)
      (fun _ => Within) { w with iteration := w.ct, roleTask := false } := by
    refine Runs.tryCatch ((launch_runs hbegin rfl).mono (fun _ _ hv => hv) (fun e v hv => Runs.bind ?_))
    refine tick_within hv (fun _ v' hv' _ => Runs.bind (Runs.get (Runs.ite (fun _ => ?_) (fun _ => ?_))))
    · exact Runs.throw hv'
    · exact Runs.pure hv'
  refine Runs.andFinally (hguarded.mono (fun code v hv => ?_) (fun _ v hv => ?_))
  · refine (stopRole_runs hv).mono (fun _ w₁ h₁ => Runs.bind (Runs.bind ?_)) (fun _ _ hx => hx)
    refine tick_done h₁.1 (fun r ct iteration => Runs.bind (Runs.modify (Runs.bind (Runs.get ?_))))
    refine Runs.ite (fun _ => Runs.bind (tick_done h₁.1 (fun _ _ _ => Runs.throw h₁.1))) (fun _ => Runs.pure ?_)
    have hend : Clear { w₁ with
        ct := ct, iteration := iteration, failures := Program.enqueue r.now w₁.failures } := h₁
    exact (attend_runs (P := Clear) hend.1 (fun _ _ => hend)).mono (fun _ _ hc => hc) (fun _ _ hc => hc.1)
  · exact (stopRole_runs hv).mono (fun _ _ hc => hc.1) (fun _ _ hx => hx)

/-- The loop, by induction on its iterations. -/
theorem iterate_runs (n : Nat) : ∀ w : HostWorld D F, Clear w →
    Supervised (Program.iterate p platform n) (fun _ => AllDone) (fun _ => AllDone) w := by
  induction n with
  | zero => exact fun w h => Runs.pure h.1
  | succ n ih =>
    intro w h
    refine Runs.bind (Runs.get (Runs.ite (fun _ => Runs.pure h.1) (fun _ => Runs.bind ?_)))
    exact (iteration_runs h).mono (fun _ v hv => ih v hv) (fun _ _ hx => hx)

/-- status.json tells whether a journal is left. -/
def StatusRight {D F : Type} (w : HostWorld D F) : Prop :=
  w.status = some (if w.pending then .recoveryRequired else .stopped)

omit [DecidableEq D] [DecidableEq F] in
/-- The last finally block. -/
theorem close_runs (h : AllDone w) :
    Supervised Program.close (fun _ v => AllDone v ∧ v.phase = .closed ∧ StatusRight v)
      (fun _ v => AllDone v ∧ v.phase = .failed) w := by
  have hbody : Supervised (do
      Program.stopCore
      let r ← Program.tick
      effect .deleteConfig id
      outcome r.err
      Program.saveStatus (if (← get).pending then .recoveryRequired else .stopped)
      modify (fun w => { w with phase := .closed }))
      (fun _ v => AllDone v ∧ v.phase = .closed ∧ StatusRight v) (fun _ => AllDone) w := by
    refine Runs.seq (stopCore_runs h (fun _ _ => h)) (fun _ w₁ h₁ => ?_)
    refine Runs.bind (tick_done h₁ (fun r ct iteration => Runs.bind (Runs.effect ?_ (Runs.bind ?_))))
    · exact HostMoment.of_done (w := { w₁ with ct := ct, iteration := iteration }) h₁ h₁ (by simp)
    refine Runs.outcome (fun _ => Runs.bind (Runs.get (Runs.bind ?_))) (fun _ _ => h₁)
    have hdone : AllDone { w₁ with ct := ct, iteration := iteration } := h₁
    refine saveStatus_runs hdone (fun _ _ => ?_) (fun _ _ _ _ => ?_)
    · exact Runs.modify ⟨h₁, rfl, rfl⟩
    · exact h₁
  refine Runs.tryCatch (hbody.mono (fun _ _ hv => hv) (fun e v hv => ?_))
  exact Runs.bind (Runs.modify (Runs.throw ⟨hv, rfl⟩))

/-- How a run ends: before its loop, past its last finally block, or not yet. -/
def RunEnd {D F : Type} (w : HostWorld D F) : Prop :=
  AllDone w ∧ (w.phase = .setup ∨ w.phase = .failed ∨ (w.phase = .closed ∧ StatusRight w))

theorem runAsync_runs (p : NetworkProfile) (platform : String) (n : Nat) (h : AllDone w) (hphase : w.phase = .setup) :
    Supervised (Program.runAsync p platform n) (fun ended v => ended = true → RunEnd v) (fun _ => RunEnd) w := by
  have hsetup : ∀ v : HostWorld D F, AllDone v → v.phase = .setup → RunEnd v := fun _ hv hp => ⟨hv, Or.inl hp⟩
  have hattend := attend_runs (P := fun v => AllDone v ∧ v.phase = .setup) h (fun _ _ => ⟨h, hphase⟩)
  refine Runs.bind (hattend.mono (fun _ w₁ h₁ => ?_) (fun _ v hv => hsetup v hv.1 hv.2))
  refine Runs.bind (recoverClient_runs h₁.1 (fun client ct₂ iteration₂ _ => ?_)
    (fun _ _ _ _ => hsetup _ h₁.1 h₁.2))
  have hroutes : AllDone { w₁ with client := client, ct := ct₂, iteration := iteration₂ } := h₁.1
  refine Runs.bind (recoverGateway_runs hroutes (fun gateway ct₃ iteration₃ hgateway => ?_)
    (fun _ _ _ _ => hsetup _ h₁.1 h₁.2))
  have hrecovered : AllDone { w₁ with client := client, gateway := gateway, ct := ct₃, iteration := iteration₃ } := h₁.1
  have hattend' := attend_runs (P := fun v => Clear v ∧ v.phase = .setup) hrecovered
    (fun _ _ => ⟨⟨h₁.1, hgateway⟩, h₁.2⟩)
  refine Runs.bind (hattend'.mono (fun _ w₄ h₄ => ?_) (fun _ v hv => hsetup v hv.1.1 hv.2))
  have hclear : Clear { w₄ with phase := .loop } := h₄.1
  -- the manager is disposed of after the finally block
  have hdispose : ∀ v : HostWorld D F, RunEnd v → Supervised Program.stopCore (fun _ => RunEnd) (fun _ => RunEnd) v :=
    fun v hv => stopCore_runs hv.1 (fun _ _ => hv)
  have hclose : ∀ v : HostWorld D F, AllDone v → Supervised Program.close (fun _ => RunEnd) (fun _ => RunEnd) v :=
    fun v hv => (close_runs hv).mono (fun _ _ hc => ⟨hc.1, Or.inr (Or.inr hc.2)⟩)
      (fun _ _ hc => ⟨hc.1, Or.inr (Or.inl hc.2)⟩)
  refine Runs.bind (Runs.modify (Runs.finallyIfEnded (Runs.finallyIfEnded ((iterate_runs n _ hclear).mono ?_ ?_))))
  · intro ended v hv
    cases ended with
    | false => exact fun hf => by simp at hf
    | true =>
      refine (hclose v hv).mono (fun _ v' hv' => ?_) (fun e v' hv' => hdispose v' hv')
      exact (hdispose v' hv').mono (fun _ _ hend _ => hend) (fun _ _ hend => hend)
  · intro e v hv
    exact (hclose v hv).mono (fun _ v' hv' => hdispose v' hv') (fun _ v' hv' => hdispose v' hv')

omit [DecidableEq D] [DecidableEq F] in
theorem pending_eq_false : w.pending = false ↔ w.client.routes.file = none ∧ w.gateway.server.file = none := by
  simp [HostWorld.pending]

omit [DecidableEq D] [DecidableEq F] in
theorem StatusRight.iff (h : StatusRight w) :
    (w.status = some .stopped ↔ w.client.routes.file = none ∧ w.gateway.server.file = none) ∧
    (w.status = some .recoveryRequired ↔ ¬(w.client.routes.file = none ∧ w.gateway.server.file = none)) := by
  rw [StatusRight] at h
  rw [← pending_eq_false, h]
  cases w.pending with
  | false => simp
  | true => simp

/-- Core's lifetime in every run of `RunAsync`, however Core exits, whatever the
role tasks do and throw and whenever the host is cancelled. -/
theorem core_lifetime_brackets_changes (p : NetworkProfile) (platform : String) (n : Nat)
    (script : Nat → HostReply D F) (w₀ : HostWorld D F) (hroles : w₀.roles = []) (hphase : w₀.phase = .setup) :
    let r := Program.runAsync p platform n script w₀
    -- Core is stopped only after the role task, with its rollback, has ended
    (∀ m ∈ r.trace, m.event = .stopCore → ∀ t ∈ m.before.roles, t.finished = true) ∧
    -- Core is started only while neither journal exists
    (∀ m ∈ r.trace, m.event = .startCore →
      m.before.client.routes.file = none ∧ m.before.gateway.server.file = none) ∧
    -- no two role tasks overlap, and no recovery overlaps one
    (∀ m ∈ r.trace, AtMostOne m.before ∧ AtMostOne m.after) ∧
    (∀ m ∈ r.trace, m.event = .recoverRoutes ∨ m.event = .recoverGateway →
      ∀ t ∈ m.before.roles, t.finished = true) ∧
    -- a run that has ended never reached its loop, or a call of its last finally block failed, or
    -- status.json is right
    (r.result ≠ .ok false → r.world.phase = .setup ∨ r.world.phase = .failed ∨ (r.world.phase = .closed ∧
      (r.world.status = some .stopped ↔
        r.world.client.routes.file = none ∧ r.world.gateway.server.file = none) ∧
      (r.world.status = some .recoveryRequired ↔
        ¬(r.world.client.routes.file = none ∧ r.world.gateway.server.file = none)))) := by
  intro r
  have hdone : AllDone w₀ := fun t ht => by simp [hroles] at ht
  obtain ⟨hmoments, hend, _⟩ := runAsync_runs p platform n hdone hphase script (fun _ => trivial)
  refine ⟨fun m hm => (hmoments m hm).stop, fun m hm => (hmoments m hm).start, fun m hm => (hmoments m hm).single,
    fun m hm => (hmoments m hm).recover, ?_⟩
  intro hended
  have hrun : RunEnd r.world := by
    revert hended hend
    change Ends _ _ r.result r.world → _
    cases r.result with
    | error e => exact fun hend _ => hend
    | ok ended =>
      cases ended with
      | true => exact fun hend _ => hend rfl
      | false => exact fun _ hended => absurd rfl hended
  rcases hrun.2 with hs | hf | ⟨hc, hright⟩
  · exact Or.inl hs
  · exact Or.inr (Or.inl hf)
  · exact Or.inr (Or.inr ⟨hc, hright.iff⟩)

end Loop

/-! ## A gateway server whose Core keeps exiting -/

def serverProfile : NetworkProfile :=
  { networkName := "home", secretFile := "secret", role := .gateway, seedPhysicalIp := some "203.0.113.9" }

def serverHost : HostWorld Bool Bool where
  client := ⟨homeWorld, none⟩
  gateway := ⟨Gateway.serverWorld, none⟩
  ct := false
  iteration := false
  roleTask := false
  roles := []
  failures := []
  status := none
  phase := .setup

/-- Every call succeeds, and Core exits while the role task is still in its first
pass. -/
def exitingReply : HostReply Bool Bool where
  cancel := false
  schedule := [0, 0]
  applied := true
  err := none
  now := 0
  exitCode := 1
  roleFirst := false
  plan := ⟨goodScript, Gateway.smoothScript, goodReply.snapshot, homeContext, [], Gateway.serverPhysical,
    Gateway.serverOverlay, 1⟩

theorem core_lifetime_brackets_changes_exits :
    (Program.runAsync serverProfile "linux" 6 (fun _ => exitingReply) serverHost).world.roles.length = 6 ∧
    (Program.runAsync serverProfile "linux" 6 (fun _ => exitingReply) serverHost).world.status = some .stopped ∧
    (∀ m ∈ (Program.runAsync serverProfile "linux" 6 (fun _ => exitingReply) serverHost).trace,
      m.event = .stopCore → ∀ t ∈ m.before.roles, t.finished = true) := by
  have hall := core_lifetime_brackets_changes serverProfile "linux" 6 (fun _ => exitingReply) serverHost rfl rfl
  exact ⟨by decide +kernel, by decide +kernel, hall.1⟩

end EasyTierHost
