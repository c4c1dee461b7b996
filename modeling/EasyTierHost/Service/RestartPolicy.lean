import EasyTierHost.Service.CoreLifetime
import Mathlib.Data.List.TakeWhile

/- The restart policy for role failures. The catch block of an iteration means to
   turn a failed role task into one more entry of the failures queue and another
   start of Core. It does not get there: `StopRoleAsync` in the finally block awaits
   the same task again and passes its exception on, so the first role task that
   fails with anything but a cancellation ends the loop, and its failure is not
   counted. -/
namespace EasyTierHost
open Effects Effects.Prog

/-! ## What waiting leaves alone -/

section Frame
variable {D F : Type} {w : HostWorld D F}

/-- The failures queue, whether the iteration has a role task, and how the role
tasks end. -/
def HostWorld.frame (w : HostWorld D F) : List Int × Bool × List (Except Err Unit) :=
  (w.failures, w.roleTask, w.roles.map RoleTask.result)

/-- The role task of the iteration fails with something other than a cancellation. -/
def RoleFaults (w : HostWorld D F) : Prop :=
  w.roleTask = true ∧ (w.roles.map RoleTask.result).head?.any faulted = true

instance (w : HostWorld D F) : Decidable (RoleFaults w) := inferInstanceAs (Decidable (_ ∧ _))

theorem RoleFaults.of_frame {v : HostWorld D F} (h : RoleFaults v) (hf : v.frame = w.frame) : RoleFaults w := by
  have hrole : v.roleTask = w.roleTask := congrArg (fun f => f.2.1) hf
  have hroles : v.roles.map RoleTask.result = w.roles.map RoleTask.result := congrArg (fun f => f.2.2) hf
  rw [RoleFaults, hrole, hroles] at h
  exact h

theorem failures_of_frame {v : HostWorld D F} (hf : v.frame = w.frame) : v.failures = w.failures :=
  congrArg (fun f => f.1) hf

theorem roleStep_frame (i : Nat) : (w.roleStep i).frame = w.frame := by
  -- the task that moves on keeps its result
  have hset : ∀ task task' : RoleTask D F, w.roles[i]? = some task → task'.result = task.result →
      (w.roles.set i task').map RoleTask.result = w.roles.map RoleTask.result := by
    intro task task' hi hr
    rw [List.map_set, hr]
    refine List.ext_getElem? (fun k => ?_)
    rw [List.getElem?_set]
    split
    · next hk =>
      subst hk
      rw [List.getElem?_map, hi]
      have hlt : i < w.roles.length := (List.getElem?_eq_some_iff.mp hi).1
      simp [hlt]
    · rfl
  unfold HostWorld.roleStep
  split
  · next heq => exact congrArg (fun results => (w.failures, w.roleTask, results)) (hset _ _ heq rfl)
  · next heq => exact congrArg (fun results => (w.failures, w.roleTask, results)) (hset _ _ heq rfl)
  · rfl

theorem roleSteps_frame {X : Err → HostWorld D F → Prop} (f : Nat → Nat) (l : List Nat) :
    Freely (each (fun i => effect (.role (f i)) (HostWorld.roleStep (f i))) l : HostM D F Unit)
      (fun _ v => v.frame = w.frame) X w :=
  Runs.each_inv (J := fun v : HostWorld D F => v.frame = w.frame)
    (fun _ _ _ hv => Runs.effect trivial ((roleStep_frame _).trans hv)) rfl

theorem tick_frame {Q : HostReply D F → HostWorld D F → Prop} {X : Err → HostWorld D F → Prop}
    (hQ : ∀ r v, v.frame = w.frame → Q r v) : Freely Program.tick Q X w := by
  refine Runs.bind (Runs.ask (fun r _ => Runs.bind (Runs.modify (Runs.bind ?_))))
  exact (roleSteps_frame id r.schedule).mono (fun _ v hv => Runs.pure (hQ r v hv)) (fun _ _ hx => hx)

/-- A program that keeps the frame, however it ends. -/
def Framed {α : Type} (x : HostM D F α) : Prop :=
  ∀ w : HostWorld D F, Freely x (fun _ v => v.frame = w.frame) (fun _ v => v.frame = w.frame) w

theorem attend_frame : Framed (Program.attend : HostM D F Unit) := fun _ =>
  Runs.bind (tick_frame (fun _ _ hv => Runs.outcome (fun _ => hv) (fun _ _ => hv)))

theorem startCore_frame : Framed (Program.startCore : HostM D F Unit) := fun _ =>
  Runs.bind (tick_frame (fun _ _ hv => Runs.bind (Runs.effect trivial (Runs.outcome (fun _ => hv) (fun _ _ => hv)))))

theorem stopCore_frame : Framed (Program.stopCore : HostM D F Unit) := fun _ =>
  Runs.bind (tick_frame (fun _ _ hv => Runs.bind (Runs.effect trivial (Runs.outcome (fun _ => hv) (fun _ _ => hv)))))

theorem saveStatus_frame {status : HostStatus} : Framed (Program.saveStatus status : HostM D F Unit) := by
  intro w
  refine Runs.bind (tick_frame (fun r v hv => Runs.bind (Runs.effect trivial ?_)))
  have hsaved : (if r.applied ∨ r.err.isNone then { v with status := some status } else v).frame = w.frame := by
    split
    · exact hv
    · exact hv
  exact Runs.outcome (fun _ => hsaved) (fun _ _ => hsaved)

theorem awaitExit_frame : Framed (Program.awaitExit : HostM D F Int) := fun _ =>
  Runs.bind (tick_frame (fun _ _ hv => Runs.bind (Runs.outcome (fun _ => Runs.pure hv) (fun _ _ => hv))))

theorem cancelIteration_frame : Framed (Program.cancelIteration : HostM D F Unit) := fun _ =>
  Runs.bind (Runs.modify (Runs.bind (tick_frame (fun _ _ hv => Runs.pure hv))))

theorem recoverClient_frame [DecidableEq D] : Framed (Program.recoverClient : HostM D F Unit) := fun _ =>
  Runs.bind (tick_frame (fun _ _ hv => Runs.bind (Runs.get (Runs.bind (Runs.effect trivial
    (Runs.ofExcept (fun _ _ => hv) (fun _ _ => hv)))))))

/-- `await roleTask` throws what the task failed with. -/
theorem awaitRole_ends :
    Freely Program.awaitRole (fun _ v => v.frame = w.frame ∧ ¬RoleFaults v)
      (fun e v => v.frame = w.frame ∧ (RoleFaults v → e.isCancelled = false)) w := by
  refine Runs.bind (tick_frame (fun r w₁ h₁ => Runs.bind (Runs.get ?_)))
  cases hroles : w₁.roles with
  | nil => exact Runs.throw ⟨h₁, fun _ => rfl⟩
  | cons task earlier =>
    refine Runs.seq (roleSteps_frame (fun _ => 0) (List.range task.steps)) (fun _ v hv => ?_)
    -- the latest task still ends as it did before it was awaited
    have hlatest : RoleFaults v → faulted task.result = true := by
      intro hfault
      have hf := (hfault.of_frame hv).2
      rw [hroles, List.map_cons, List.head?_cons] at hf
      exact hf
    refine Runs.ofExcept (fun a ha => ⟨hv.trans h₁, fun hfault => ?_⟩) (fun e he => ⟨hv.trans h₁, fun hfault => ?_⟩)
    · have hf := hlatest hfault
      rw [ha] at hf
      simp [faulted] at hf
    · have hf := hlatest hfault
      rw [he] at hf
      simpa [faulted] using hf

/-- Only a cancellation is ignored, so where awaiting goes on the task did not fail. -/
theorem ignoreCancelled_ends :
    Freely (Program.ignoreCancelled Program.awaitRole) (fun _ v => v.frame = w.frame ∧ ¬RoleFaults v)
      (fun _ v => v.frame = w.frame) w := by
  refine Runs.tryCatch (awaitRole_ends.mono (fun _ _ hv => hv) (fun e v hv => ?_))
  refine Runs.bind (Runs.get (Runs.ite (fun hc => Runs.pure ⟨hv.1, fun hfault => ?_⟩) (fun _ => Runs.throw hv.1)))
  rw [hv.2 hfault] at hc
  simp at hc

/-- `StopRoleAsync` returns only if the role task did not fail. -/
theorem stopRole_ends :
    Freely Program.stopRole (fun _ v => v.failures = w.failures ∧ ¬RoleFaults v)
      (fun _ v => v.failures = w.failures) w := by
  refine Runs.andFinally (Runs.bind ((cancelIteration_frame w).mono (fun _ w₁ h₁ => ?_) (fun _ w₁ h₁ => ?_)))
  · refine Runs.bind (Runs.get (Runs.ite (fun _ => ?_) (fun hr => Runs.pure ?_)))
    · refine ignoreCancelled_ends.mono (fun _ w₂ h₂ => ?_) (fun _ w₂ h₂ => ?_)
      · refine (stopCore_frame w₂).mono (fun _ v hv => ⟨failures_of_frame (hv.trans (h₂.1.trans h₁)), fun hfault => ?_⟩)
          (fun _ v hv => failures_of_frame (hv.trans (h₂.1.trans h₁)))
        exact h₂.2 (hfault.of_frame hv)
      · exact (stopCore_frame w₂).mono (fun _ v hv => failures_of_frame (hv.trans (h₂.trans h₁)))
          (fun _ v hv => failures_of_frame (hv.trans (h₂.trans h₁)))
    · refine (stopCore_frame w₁).mono (fun _ v hv => ⟨failures_of_frame (hv.trans h₁), fun hfault => ?_⟩)
        (fun _ v hv => failures_of_frame (hv.trans h₁))
      exact hr (hfault.of_frame hv).1
  · exact (stopCore_frame w₁).mono (fun _ v hv => failures_of_frame (hv.trans h₁))
      (fun _ v hv => failures_of_frame (hv.trans h₁))

end Frame

/-! ## One iteration -/

section Iteration
variable {D F : Type} [DecidableEq D] [DecidableEq F] {w : HostWorld D F} {p : NetworkProfile} {platform : String}

/-- A program that leaves the failures queue alone, however it ends. -/
def Uncounted {D F α : Type} (x : HostM D F α) : Prop :=
  ∀ w : HostWorld D F, Freely x (fun _ v => v.failures = w.failures) (fun _ v => v.failures = w.failures) w

omit [DecidableEq D] [DecidableEq F] in
theorem Framed.uncounted {α : Type} {x : HostM D F α} (h : Framed x) : Uncounted x := fun w =>
  (h w).mono (fun _ _ hv => failures_of_frame hv) (fun _ _ hv => failures_of_frame hv)

omit [DecidableEq D] [DecidableEq F] in
theorem Uncounted.bind {α β : Type} {x : HostM D F α} {f : α → HostM D F β} (hx : Uncounted x)
    (hf : ∀ a, Uncounted (f a)) : Uncounted (x >>= f) := fun w =>
  Runs.seq (hx w) (fun a v hv => (hf a v).mono (fun _ _ h => h.trans hv) (fun _ _ h => h.trans hv))

omit [DecidableEq D] [DecidableEq F] in
theorem Uncounted.ite {α : Type} {c : Prop} [Decidable c] {x y : HostM D F α} (hx : Uncounted x)
    (hy : Uncounted y) : Uncounted (if c then x else y) := fun w =>
  Runs.ite (fun _ => hx w) (fun _ => hy w)

omit [DecidableEq D] [DecidableEq F] in
theorem uncounted_pure {α : Type} (a : α) : Uncounted (pure a : HostM D F α) := fun _ => Runs.pure rfl

omit [DecidableEq D] [DecidableEq F] in
theorem uncounted_get : Uncounted (get : HostM D F (HostWorld D F)) := fun _ => Runs.get rfl

omit [DecidableEq D] [DecidableEq F] in
theorem awaitEither_uncounted : Uncounted (Program.awaitEither : HostM D F Int) := by
  have hawait : Uncounted (Program.awaitRole : HostM D F Unit) := fun w =>
    awaitRole_ends.mono (fun _ _ hv => failures_of_frame hv.1) (fun _ _ hv => failures_of_frame hv.1)
  have hignore : Uncounted (Program.ignoreCancelled Program.awaitRole : HostM D F Unit) := fun w =>
    ignoreCancelled_ends.mono (fun _ _ hv => failures_of_frame hv.1) (fun _ _ hv => failures_of_frame hv)
  have htick : Uncounted (Program.tick : HostM D F (HostReply D F)) := fun w =>
    tick_frame (fun _ _ hv => failures_of_frame hv)
  refine htick.bind (fun r => Uncounted.ite ?_ ?_)
  · exact hawait.bind (fun _ _ => Runs.throw rfl)
  · exact awaitExit_frame.uncounted.bind (fun code => cancelIteration_frame.uncounted.bind
      (fun _ => hignore.bind (fun _ => uncounted_pure code)))

theorem startRole_uncounted : Uncounted (Program.startRole p platform : HostM D F Unit) := by
  intro w
  refine Runs.bind (tick_frame (fun r v hv => ?_))
  have hkept : v.failures = w.failures := failures_of_frame hv
  exact Runs.ite (fun _ => Runs.effect trivial hkept)
    (fun _ => Runs.ite (fun _ => Runs.effect trivial hkept) (fun _ => Runs.pure hkept))

/-- The try block of an iteration counts nothing. -/
theorem launch_uncounted : Uncounted (Program.launch p platform : HostM D F Int) := by
  have hcore : Uncounted (do
      Program.startCore
      Program.saveStatus (Program.startingStatus p)
      Program.startRole p platform
      if (← get).roleTask then Program.awaitEither else Program.awaitExit : HostM D F Int) :=
    startCore_frame.uncounted.bind (fun _ => saveStatus_frame.uncounted.bind (fun _ =>
      startRole_uncounted.bind (fun _ => uncounted_get.bind (fun _ =>
        awaitEither_uncounted.ite awaitExit_frame.uncounted))))
  exact recoverClient_frame.uncounted.bind (fun _ => Uncounted.ite (attend_frame.uncounted.bind (fun _ => hcore)) hcore)

/-- Nor does the catch block. -/
theorem guarded_uncounted (p : NetworkProfile) (platform : String) :
    Uncounted (tryCatch (Program.launch p platform) Program.caught : HostM D F Int) := by
  intro w
  refine Runs.tryCatch ((launch_uncounted w).mono (fun _ _ hv => hv) (fun e v hv => Runs.bind ?_))
  refine tick_frame (fun _ v' hv' => Runs.bind (Runs.get (Runs.ite (fun _ => Runs.throw ?_) (fun _ => Runs.pure ?_))))
  · exact (failures_of_frame hv').trans hv
  · exact (failures_of_frame hv').trans hv

/-- An iteration that returns had no failing role task, and one whose role task
failed did not count the failure. -/
theorem iteration_ends (p : NetworkProfile) (platform : String) (w : HostWorld D F) :
    Freely (Program.iteration p platform) (fun _ v => ¬RoleFaults v)
      (fun _ v => RoleFaults v → v.failures = w.failures) w := by
  refine Runs.bind (Runs.modify (Runs.bind (Runs.andFinally ((guarded_uncounted p platform _).mono (fun code w₁ h₁ => ?_)
    (fun _ w₁ h₁ => ?_)))))
  · refine stopRole_ends.mono (fun _ w₂ h₂ => ?_) (fun _ w₂ h₂ _ => h₂.trans h₁)
    -- from here on the role task is known not to have failed
    refine Runs.bind (Runs.bind (tick_frame (fun r w₃ h₃ => Runs.bind (Runs.modify (Runs.bind (Runs.get ?_))))))
    have hgood : ¬RoleFaults { w₃ with failures := Program.enqueue r.now w₃.failures } :=
      fun hfault => h₂.2 (RoleFaults.of_frame (v := w₃) hfault h₃)
    refine Runs.ite (fun _ => Runs.bind (tick_frame (fun _ v hv => Runs.throw ?_))) (fun _ => Runs.pure ?_)
    · exact fun hfault => absurd (hfault.of_frame hv) hgood
    · refine (attend_frame _).mono (fun _ v hv hfault => hgood (hfault.of_frame hv)) ?_
      exact fun _ v hv hfault => absurd (hfault.of_frame hv) hgood
  · exact stopRole_ends.mono (fun _ _ hv _ => hv.1.trans h₁) (fun _ _ hv _ => hv.trans h₁)

/-! ## Runs of the loop -/

/-- One iteration: the world it began in and its run. -/
structure Pass (D F : Type) where
  before : HostWorld D F
  run : Ran HostEvent (HostReply D F) (HostWorld D F) Err Unit

/-- The iterations of `Program.iterate`. -/
def passes (p : NetworkProfile) (platform : String) : Nat → (Nat → HostReply D F) → HostWorld D F → List (Pass D F)
  | 0, _, _ => []
  | n + 1, script, w =>
    if w.ct then []
    else
      let r := Program.iteration p platform script w
      ⟨w, r⟩ :: (match r.result with
        | .ok _ => passes p platform n r.rest r.world
        | .error _ => [])

/-- The role coordinator failed with a non-cancellation exception, its own rollback
completed, and the host was not cancelled. -/
def Pass.RoleFailed (pass : Pass D F) : Prop :=
  RoleFaults pass.run.world ∧ pass.run.world.pending = false ∧ pass.run.world.ct = false

/-- The failure is one entry of the queue, and the loop goes on or gives up with
ETH101. -/
def Pass.Restarted (pass : Pass D F) : Prop :=
  (∃ now, pass.run.world.failures = Program.enqueue now pass.before.failures) ∧
    (pass.run.result = .ok () ∨ (pass.run.result = .error (.host "ETH101" "Repeated core failures: Degraded") ∧
      5 < pass.run.world.failures.length))

omit [DecidableEq D] [DecidableEq F] in
/-- An entry leaves its mark: the queue is never what it was before. -/
theorem enqueue_ne (now : Int) (failures : List Int) : Program.enqueue now failures ≠ failures := by
  intro heq
  have hkept : ((failures ++ [now]).takeWhile (fun t => now - t > Program.window)).count now = 0 := by
    refine List.count_eq_zero.mpr (fun hm => ?_)
    have hold := List.mem_takeWhile_imp hm
    simp [Program.window] at hold
  -- what is dropped is older than `now`, so `now` occurs once more than it did
  have hcount : (failures ++ [now]).count now = (Program.enqueue now failures).count now := by
    calc (failures ++ [now]).count now
        = ((failures ++ [now]).takeWhile (fun t => now - t > Program.window) ++
            (failures ++ [now]).dropWhile (fun t => now - t > Program.window)).count now := by
          rw [List.takeWhile_append_dropWhile]
      _ = (Program.enqueue now failures).count now := by rw [List.count_append, hkept, Nat.zero_add]; rfl
  rw [heq, List.count_append, List.count_singleton_self] at hcount
  omega

/-- The trace of the loop is that of its iterations. -/
theorem iterate_trace (p : NetworkProfile) (platform : String) :
    ∀ (n : Nat) (script : Nat → HostReply D F) (w : HostWorld D F),
      (Program.iterate p platform n script w).trace =
        (passes p platform n script w).flatMap (fun pass => pass.run.trace)
  | 0, _, _ => rfl
  | n + 1, script, w => by
    have hstep : (Program.iterate p platform (n + 1) script w).trace =
        ((if w.ct = true then pure true
          else Program.iteration p platform >>= fun _ => Program.iterate p platform n) script w).trace := rfl
    rw [hstep, passes]
    split
    · rfl
    · rw [trace_bind, List.flatMap_cons]
      cases (Program.iteration p platform script w).result with
      | ok a => rw [iterate_trace p platform n]
      | error e => rfl

theorem mem_passes {p : NetworkProfile} {platform : String} :
    ∀ {n : Nat} {script : Nat → HostReply D F} {w : HostWorld D F} {pass : Pass D F},
      pass ∈ passes p platform n script w →
      ∃ script', pass.run = Program.iteration p platform script' pass.before
  | 0, _, _, _, hm => absurd hm List.not_mem_nil
  | n + 1, script, w, pass, hm => by
    rw [passes] at hm
    split at hm
    · exact absurd hm List.not_mem_nil
    · rcases List.mem_cons.mp hm with rfl | hm
      · exact ⟨script, rfl⟩
      · split at hm
        · exact mem_passes hm
        · exact absurd hm List.not_mem_nil

/-- A role failure is never counted. -/
theorem Pass.not_restarted {p : NetworkProfile} {platform : String} {pass : Pass D F} {script : Nat → HostReply D F}
    (hrun : pass.run = Program.iteration p platform script pass.before) (h : pass.RoleFailed) :
    ¬pass.Restarted := by
  intro hgiven
  obtain ⟨⟨now, hqueue⟩, _⟩ := hgiven
  have hfault := h.1
  have hend := (iteration_ends p platform pass.before script (fun _ => trivial)).2.1
  rw [← hrun] at hend
  cases hres : pass.run.result with
  | ok a =>
    rw [hres] at hend
    exact hend hfault
  | error e =>
    rw [hres] at hend
    rw [hend hfault] at hqueue
    exact enqueue_ne now _ hqueue.symm

/-- A run of the loop is that of its iterations, and the restart policy holds of it
exactly if no role coordinator fails in it. -/
theorem role_failure_restarts_iff (p : NetworkProfile) (platform : String) (n : Nat)
    (script : Nat → HostReply D F) (w : HostWorld D F) :
    (Program.iterate p platform n script w).trace =
        (passes p platform n script w).flatMap (fun pass => pass.run.trace) ∧
      ((∀ pass ∈ passes p platform n script w, pass.RoleFailed → pass.Restarted) ↔
        ∀ pass ∈ passes p platform n script w, ¬pass.RoleFailed) := by
  refine ⟨iterate_trace p platform n script w, ?_⟩
  constructor
  · intro hpolicy pass hm hfailed
    obtain ⟨script', hrun⟩ := mem_passes hm
    exact Pass.not_restarted hrun hfailed (hpolicy pass hm hfailed)
  · exact fun hnone pass hm hfailed => absurd hfailed (hnone pass hm)

end Iteration

/-! ## A gateway server that fails its health check -/

/-- The gateway starts, and its first health check fails. -/
def unhealthyScript : Nat → GatewayReply Bool := fun n =>
  if n = 14 then { Gateway.smoothScript n with healthy := false } else Gateway.smoothScript n

/-- The role task ends before Core does. -/
def unhealthyReply : HostReply Bool Bool :=
  { exitingReply with
    roleFirst := true
    plan := { exitingReply.plan with gatewayScript := unhealthyScript, passes := 2 } }

/-- The server in its loop. -/
def servingHost : HostWorld Bool Bool := { serverHost with phase := .loop }

/-- The health check fails, the gateway is rolled back, and `RunAsync` ends with that
failure instead of starting Core again. -/
theorem role_failure_not_restarted :
    ¬∀ (p : NetworkProfile) (platform : String) (n : Nat) (script : Nat → HostReply Bool Bool)
      (w : HostWorld Bool Bool), ∀ pass ∈ passes p platform n script w, pass.RoleFailed → pass.Restarted := by
  intro hall
  have hpass := hall serverProfile "linux" 1 (fun _ => unhealthyReply) servingHost
    ⟨servingHost, Program.iteration serverProfile "linux" (fun _ => unhealthyReply) servingHost⟩
    (by rw [passes]; exact List.mem_cons_self)
  obtain ⟨⟨now, hqueue⟩, _⟩ := hpass ⟨by decide +kernel, by decide +kernel, by decide +kernel⟩
  have hempty : (Program.iteration serverProfile "linux" (fun _ => unhealthyReply) servingHost).world.failures = [] := by
    decide +kernel
  exact enqueue_ne now [] (hqueue.symm.trans hempty)

end EasyTierHost
