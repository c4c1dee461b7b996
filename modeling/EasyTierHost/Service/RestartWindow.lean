import EasyTierHost.Service.RestartPolicy
import Mathlib.Data.List.Induction

/- The limit on restarts. The failures queue drops times from its front only, and only
   when a failure arrives. The times do not decrease, so what is left is the window of
   two minutes that ends at the latest of them, and the sixth failure in such a window
   is the first that ends the loop with ETH101. -/
namespace EasyTierHost
open Effects Effects.Prog

namespace Program

/-! ## The window -/

/-- The times in the two minutes up to `now`, both ends included. -/
def inWindow (now : Int) (times : List Int) : List Int :=
  times.filter (fun t => now - window ≤ t ∧ t ≤ now)

/-- Of an ordered list, dropping from the front leaves what is not below the cutoff. -/
theorem dropWhile_eq_filter (cutoff : Int) : ∀ {l : List Int}, l.Pairwise (· ≤ ·) →
    l.dropWhile (fun t => t < cutoff) = l.filter (fun t => cutoff ≤ t)
  | [], _ => rfl
  | t :: l, h => by
    have hl := List.pairwise_cons.mp h
    by_cases ht : t < cutoff
    · rw [List.dropWhile_cons_of_pos (by simpa using ht), List.filter_cons_of_neg (by simpa using ht),
        dropWhile_eq_filter cutoff hl.2]
    · have hall : ∀ u ∈ t :: l, cutoff ≤ u := by
        intro u hu
        rcases List.mem_cons.mp hu with rfl | hu
        · omega
        · have htu := hl.1 u hu
          omega
      rw [List.dropWhile_cons_of_neg (by simpa using ht)]
      symm
      rw [List.filter_eq_self]
      intro u hu
      simpa using hall u hu

/-- The queue after the failures at `times`. -/
def queued (times : List Int) : List Int := times.foldl (fun q t => enqueue t q) []

theorem queued_concat (times : List Int) (now : Int) : queued (times ++ [now]) = enqueue now (queued times) := by
  rw [queued, List.foldl_append]
  rfl

/-- The window moves on with the latest time. -/
theorem inWindow_inWindow {now last : Int} {times : List Int} (h : ∀ t ∈ times, t ≤ last) (hnow : last ≤ now) :
    (inWindow last times).filter (fun t => now - window ≤ t) = inWindow now times := by
  rw [inWindow, inWindow, List.filter_filter]
  apply List.filter_congr
  intro t ht
  have htl := h t ht
  rw [← Bool.decide_and]
  apply decide_eq_decide.mpr
  omega

theorem inWindow_append (now : Int) (times later : List Int) :
    inWindow now (times ++ later) = inWindow now times ++ inWindow now later := List.filter_append ..

theorem inWindow_self (now : Int) : inWindow now [now] = [now] := by
  have hwindow : 0 < window := by decide
  rw [inWindow, List.filter_eq_self]
  intro t ht
  rw [List.mem_singleton.mp ht]
  apply decide_eq_true
  omega

/-- The queue is the window. -/
theorem queued_eq (times : List Int) :
    ∀ now, (times ++ [now]).Pairwise (· ≤ ·) → queued (times ++ [now]) = inWindow now (times ++ [now]) := by
  induction times using List.reverseRecOn with
  | nil =>
    intro now _
    have hwindow : 0 < window := by decide
    have hfirst : queued [now] = enqueue now [] := rfl
    rw [List.nil_append, inWindow_self, hfirst, enqueue, List.nil_append,
      List.dropWhile_cons_of_neg (by simp; omega)]
  | append_singleton times last ih =>
    intro now h
    obtain ⟨hbefore, -, hnow⟩ := List.pairwise_append.mp h
    have hlast : last ≤ now := hnow last (by simp) now (by simp)
    have hle : ∀ t ∈ times ++ [last], t ≤ last := by
      intro t ht
      rcases List.mem_append.mp ht with ht | ht
      · exact (List.pairwise_append.mp hbefore).2.2 t ht last (by simp)
      · exact (List.mem_singleton.mp ht).le
    have hordered : (inWindow last (times ++ [last]) ++ [now]).Pairwise (· ≤ ·) := by
      refine h.sublist ?_
      exact List.Sublist.append (List.filter_sublist) (List.Sublist.refl _)
    have hold : (fun t => decide (now - t > window)) = (fun t => decide (t < now - window)) := by
      funext t
      apply decide_eq_decide.mpr
      omega
    calc queued (times ++ [last] ++ [now])
        = (inWindow last (times ++ [last]) ++ [now]).dropWhile (fun t => t < now - window) := by
          rw [queued_concat, ih last hbefore, enqueue, hold]
      _ = (inWindow last (times ++ [last]) ++ [now]).filter (fun t => now - window ≤ t) :=
          dropWhile_eq_filter _ hordered
      _ = inWindow now (times ++ [last]) ++ inWindow now [now] := by
          rw [List.filter_append, inWindow_inWindow hle hlast, inWindow_self]
          have hwindow : 0 < window := by decide
          have hnew : now - window ≤ now := by omega
          rw [List.filter_cons_of_pos (by simpa using hnew), List.filter_nil]
      _ = inWindow now (times ++ [last] ++ [now]) := (inWindow_append now _ _).symm

/-! ## One failure -/

section Failure
variable {D F : Type}

/-- What ends the loop. -/
def degraded : Err := .host "ETH101" "Repeated core failures: Degraded"

/-- Waiting takes the next reply and leaves the queue alone. -/
theorem tick_run (script : Nat → HostReply D F) (w : HostWorld D F) :
    (tick script w).result = .ok (script 0) ∧ (tick script w).world.failures = w.failures := by
  have hgone : Freely (tick : HostM D F (HostReply D F)) (fun _ v => v.frame = w.frame) (fun _ _ => False) w :=
    tick_frame (fun _ _ hv => hv)
  have hreply : ∀ r : HostReply D F, Freely (do
        modify (HostWorld.observe r.cancel)
        each (fun i => effect (.role i) (HostWorld.roleStep i)) r.schedule
        return r : HostM D F (HostReply D F)) (fun a _ => a = r) (fun _ _ => True) w := by
    intro r
    refine Runs.bind (Runs.modify (Runs.bind ?_))
    exact Runs.trivially.mono (fun _ _ _ => Runs.pure rfl) (fun _ _ _ => trivial)
  have hend := (hgone script (fun _ => trivial)).2.1
  have hvalue := (hreply (script 0) (fun n => script (n + 1)) (fun _ => trivial)).2.1
  change Ends _ _ (tick script w).result (tick script w).world at hvalue
  cases hres : (tick script w).result with
  | error e =>
    rw [hres] at hend
    exact absurd hend id
  | ok r =>
    rw [hres] at hend hvalue
    exact ⟨congrArg Except.ok hvalue, failures_of_frame hend⟩

/-- The block after the clock was read. -/
def countFailure (now : Int) : HostM D F Unit := do
  modify (fun w => { w with failures := enqueue now w.failures })
  if (← get).failures.length > 5 then
    let _ ← tick
    throw degraded

theorem countFailure_ends (now : Int) (w : HostWorld D F) :
    Freely (countFailure now)
      (fun _ v => v.failures = enqueue now w.failures ∧ ¬5 < (enqueue now w.failures).length)
      (fun e v => v.failures = enqueue now w.failures ∧ 5 < (enqueue now w.failures).length ∧ e = degraded) w := by
  refine Runs.bind (Runs.modify (Runs.bind (Runs.get (Runs.ite (fun hfull => ?_) (fun hroom => ?_)))))
  · refine Runs.bind (tick_frame (fun _ v hv => Runs.throw ?_))
    exact ⟨failures_of_frame hv, hfull, rfl⟩
  · exact Runs.pure ⟨rfl, hroom⟩

/-- One failure is put in the queue, and the sixth that stays there ends the loop. -/
theorem recordFailure_run (script : Nat → HostReply D F) (w : HostWorld D F) :
    (recordFailure script w).world.failures = enqueue (script 0).now w.failures ∧
      (recordFailure script w).result =
        if 5 < (enqueue (script 0).now w.failures).length then .error degraded else .ok () := by
  obtain ⟨hreply, hkept⟩ := tick_run script w
  have hrun : recordFailure = (tick >>= fun r => countFailure r.now : HostM D F Unit) := rfl
  obtain ⟨hworld, hresult, -⟩ := bind_returned (fun r : HostReply D F => countFailure (D := D) (F := F) r.now) hreply
  rw [hrun, hworld, hresult, ← hkept]
  have hend := (countFailure_ends (script 0).now (tick script w).world (tick script w).rest (fun _ => trivial)).2.1
  cases hres : (countFailure (script 0).now (tick script w).rest (tick script w).world).result with
  | ok a =>
    rw [hres] at hend
    exact ⟨hend.1, (if_neg hend.2).symm⟩
  | error e =>
    rw [hres] at hend
    rw [if_pos hend.2.1, hend.2.2]
    exact ⟨hend.1, rfl⟩

end Failure

/-! ## The failures of the loop -/

section Loop
variable {D F : Type} [DecidableEq D] [DecidableEq F]

/-- An iteration before its failure is counted. -/
def supervise (p : NetworkProfile) (platform : String) : HostM D F Int := do
  modify (fun w => { w with iteration := w.ct, roleTask := false })
  andFinally (tryCatch (launch p platform) caught) stopRole

theorem iteration_eq (p : NetworkProfile) (platform : String) :
    (iteration p platform : HostM D F Unit) =
      supervise p platform >>= fun _ => recordFailure >>= fun _ => attend := by
  unfold iteration supervise
  rw [bind_bind]

theorem supervise_uncounted (p : NetworkProfile) (platform : String) :
    Uncounted (supervise p platform : HostM D F Int) := by
  intro w
  refine Runs.bind (Runs.modify (Runs.andFinally ((guarded_uncounted p platform _).mono ?_ ?_)))
  · exact fun code w₁ h₁ => stopRole_ends.mono (fun _ _ hv => hv.1.trans h₁) (fun _ _ hv => hv.trans h₁)
  · exact fun e w₁ h₁ => stopRole_ends.mono (fun _ _ hv => hv.1.trans h₁) (fun _ _ hv => hv.trans h₁)

/-- A failure that was counted: its time, the queue with it, and whether the loop
went on. -/
structure Failure where
  time : Int
  queue : List Int
  result : Except Err Unit

/-- The failures that `iterate` counts, in order. -/
def counted (p : NetworkProfile) (platform : String) :
    Nat → (Nat → HostReply D F) → HostWorld D F → List Failure
  | 0, _, _ => []
  | n + 1, script, w =>
    if w.ct then []
    else
      let s := supervise p platform script w
      match s.result with
      | .error _ => []
      | .ok _ =>
        let c := recordFailure s.rest s.world
        let r := iteration p platform script w
        ⟨(s.rest 0).now, c.world.failures, c.result⟩ ::
          (match r.result with
          | .ok _ => counted p platform n r.rest r.world
          | .error _ => [])

variable {p : NetworkProfile} {platform : String} {script : Nat → HostReply D F} {w : HostWorld D F}

/-- A failure is counted in an iteration that gets so far; the iteration ends with ETH101
where counting does, and leaves the queue as counting left it. -/
theorem iteration_counted {code : Int} (h : (supervise p platform script w).result = .ok code) :
    let c := recordFailure (supervise p platform script w).rest (supervise p platform script w).world
    c.world.failures = enqueue ((supervise p platform script w).rest 0).now w.failures ∧
      c.result = (if 5 < c.world.failures.length then .error degraded else .ok ()) ∧
      (∀ e, c.result = .error e → (iteration p platform script w).result = .error e) ∧
      ∀ a, (iteration p platform script w).result = .ok a →
        c.result = .ok () ∧ (iteration p platform script w).world.failures = c.world.failures := by
  have hkept : (supervise p platform script w).world.failures = w.failures :=
    (supervise_uncounted p platform w script (fun _ => trivial)).2.1.always
  obtain ⟨hqueue, hresult⟩ := recordFailure_run (supervise p platform script w).rest (supervise p platform script w).world
  rw [hkept] at hqueue hresult
  rw [← hqueue] at hresult
  obtain ⟨hworld, hend, -⟩ := bind_returned
    (fun _ : Int => recordFailure >>= fun _ => (attend : HostM D F Unit)) h
  rw [← iteration_eq] at hworld hend
  refine ⟨hqueue, hresult, ?_, ?_⟩
  · intro e he
    rw [hend]
    exact (bind_threw _ he).2
  · intro a ha
    rw [hend] at ha
    rw [hworld]
    cases hc : (recordFailure (supervise p platform script w).rest (supervise p platform script w).world).result with
    | error e =>
      rw [(bind_threw (fun _ => (attend : HostM D F Unit)) hc).2] at ha
      cases ha
    | ok u =>
      refine ⟨rfl, ?_⟩
      rw [(bind_returned (fun _ => (attend : HostM D F Unit)) hc).1]
      exact (attend_frame.uncounted _ _ (fun _ => trivial)).2.1.always

theorem counted_threw {n : Nat} {e : Err} (h : (supervise p platform script w).result = .error e) :
    counted p platform (n + 1) script w = [] := by
  rw [counted]
  split
  · rfl
  · simp only [h]

theorem counted_cons {n : Nat} {code : Int} (hct : ¬w.ct = true)
    (h : (supervise p platform script w).result = .ok code) :
    counted p platform (n + 1) script w =
      (let s := supervise p platform script w
      let c := recordFailure s.rest s.world
      ⟨(s.rest 0).now, c.world.failures, c.result⟩) ::
        (match (iteration p platform script w).result with
        | .ok _ => counted p platform n (iteration p platform script w).rest (iteration p platform script w).world
        | .error _ => []) := by
  rw [counted, if_neg hct]
  simp only [h]

/-- The failures of a run: the queue with each, and where the run ends. -/
theorem counted_spec : ∀ (n : Nat) (script : Nat → HostReply D F) (w : HostWorld D F) (k : Nat) (f : Failure),
    (counted p platform n script w)[k]? = some f →
    f.queue = (((counted p platform n script w).map Failure.time).take (k + 1)).foldl
        (fun q t => enqueue t q) w.failures ∧
      ((counted p platform n script w).map Failure.time)[k]? = some f.time ∧
      f.result = (if 5 < f.queue.length then .error degraded else .ok ()) ∧
      (f.result = .ok () ∨ k + 1 = (counted p platform n script w).length) ∧
      ∀ e, f.result = .error e → (iterate p platform n script w).result = .error e
  | 0, _, _, _, _, h => by
    rw [counted] at h
    cases h
  | n + 1, script, w, k, f, h => by
    have hloop : iterate p platform (n + 1) script w =
        (if w.ct = true then pure true
          else iteration p platform >>= fun _ => iterate p platform n : HostM D F Bool) script w := rfl
    by_cases hct : w.ct = true
    · rw [counted, if_pos hct] at h
      cases h
    rw [if_neg hct] at hloop
    cases hs : (supervise p platform script w).result with
    | error e =>
      rw [counted_threw hs] at h
      cases h
    | ok code =>
      obtain ⟨hqueue, hresult, hthrown, hreturned⟩ := iteration_counted hs
      rw [counted_cons hct hs] at h ⊢
      rw [hloop]
      cases k with
      | zero =>
        have hf := Option.some.inj h
        subst hf
        refine ⟨hqueue, rfl, hresult, ?_, fun e he => (bind_threw _ (hthrown e he)).2⟩
        cases hi : (iteration p platform script w).result with
        | ok a => exact .inl (hreturned a hi).1
        | error e => exact .inr rfl
      | succ k =>
        cases hi : (iteration p platform script w).result with
        | error e =>
          rw [hi] at h
          cases h
        | ok a =>
          obtain ⟨-, hsame⟩ := hreturned a hi
          rw [hi, List.getElem?_cons_succ] at h
          obtain ⟨hq, ht, hr, hlast, hraised⟩ := counted_spec n _ _ k f h
          refine ⟨?_, ht, hr, hlast.imp_right (congrArg (· + 1)), ?_⟩
          · rw [hq, List.map_cons, List.take_succ_cons, List.foldl_cons, hsame, hqueue]
          · intro e he
            rw [(bind_returned (fun _ => iterate p platform n) hi).2.1]
            exact hraised e he

/-- How many of the failures up to the `k`th lie in the window that ends with it. -/
def recent (times : List Int) (k : Nat) : Nat :=
  (inWindow (times.getD k 0) (times.take (k + 1))).length

/-- The restart limiter is a sliding window: with times that do not decrease, the queue
after a failure is the window that ends with it, and ETH101 ends the loop at the first
failure with six in its window. -/
theorem restart_limiter (p : NetworkProfile) (platform : String) (n : Nat) (script : Nat → HostReply D F)
    (w : HostWorld D F) (hqueue : w.failures = [])
    (htimes : ((counted p platform n script w).map Failure.time).Pairwise (· ≤ ·)) :
    let failures := counted p platform n script w
    let times := failures.map Failure.time
    ∀ (k : Nat) (f : Failure), failures[k]? = some f →
      f.queue = inWindow f.time (times.take (k + 1)) ∧
      (f.result = .ok () ∨ f.result = .error degraded) ∧
      (f.result = .error degraded ↔ 6 ≤ recent times k ∧ ∀ j < k, recent times j < 6) ∧
      (f.result = .error degraded → (iterate p platform n script w).result = .error degraded) := by
  intro failures times k f hf
  -- the queue with any failure of the run
  have hwindow : ∀ (j : Nat) (g : Failure), failures[j]? = some g →
      g.queue = inWindow g.time (times.take (j + 1)) ∧ recent times j = g.queue.length := by
    intro j g hg
    obtain ⟨hq, ht, -⟩ := counted_spec n script w j g hg
    rw [hqueue] at hq
    have htake : times.take (j + 1) = times.take j ++ [g.time] := by
      rw [List.take_add_one, ht]
      rfl
    have hord : (times.take j ++ [g.time]).Pairwise (· ≤ ·) := htake ▸ htimes.sublist (List.take_sublist _ _)
    have hq' : g.queue = inWindow g.time (times.take (j + 1)) := by
      rw [hq]
      show queued (times.take (j + 1)) = _
      rw [htake]
      exact queued_eq _ _ hord
    have hget : times.getD j 0 = g.time := by rw [List.getD_eq_getElem?_getD, ht, Option.getD_some]
    exact ⟨hq', by rw [recent, hget, hq']⟩
  obtain ⟨-, -, hresult, -, hraised⟩ := counted_spec n script w k f hf
  obtain ⟨hq, hcount⟩ := hwindow k f hf
  refine ⟨hq, ?_, ?_, hraised _⟩
  · rw [hresult]
    split
    · exact .inr rfl
    · exact .inl rfl
  · rw [hresult, hcount]
    constructor
    · intro h
      have hfull : 5 < f.queue.length := by
        by_contra hno
        rw [if_neg hno] at h
        cases h
      refine ⟨hfull, fun j hj => ?_⟩
      -- the loop went on after every earlier failure
      have hk : k < failures.length := (List.getElem?_eq_some_iff.mp hf).1
      obtain ⟨g, hg⟩ : ∃ g, failures[j]? = some g := ⟨_, List.getElem?_eq_getElem (by omega)⟩
      obtain ⟨-, -, hrg, hlast, -⟩ := counted_spec n script w j g hg
      have hok : g.result = .ok () := hlast.resolve_right (by
        show ¬j + 1 = failures.length
        omega)
      rw [hok] at hrg
      rw [(hwindow j g hg).2]
      by_contra hno
      rw [if_pos (by omega)] at hrg
      cases hrg
    · intro h
      rw [if_pos (by omega)]

end Loop

/-- Six failures at one time. -/
theorem six_failures_degraded :
    (iterate serverProfile "linux" 6 (fun _ => exitingReply) servingHost).result = .error degraded := by
  obtain ⟨f, hf⟩ : ∃ f, (counted serverProfile "linux" 6 (fun _ => exitingReply) servingHost)[5]? = some f :=
    Option.isSome_iff_exists.mp (by decide +kernel)
  have hlimit := restart_limiter serverProfile "linux" 6 (fun _ => exitingReply) servingHost rfl
    (by decide +kernel) 5 f hf
  exact hlimit.2.2.2 (hlimit.2.2.1.mpr (by decide +kernel))

end Program

end EasyTierHost
