import EasyTierHost.Network.RouteMoves
import EasyTierHost.Network.RouteSafety

/- No underlay recursion. While a /1 route of the split default stands, the
   tunnel's own packets must find the physical interface through the protection
   routes. The world is honest here: nobody else edits the table, and an add or a
   delete that returns has taken effect. Then, as long as nothing has thrown, the
   table is the original one followed by exactly what the journal owns, in the
   same order (`InStep`), and each loop of the source grows or lessens it by known
   routes. -/
namespace EasyTierHost
open Effects Effects.Prog GatewayRouteController

variable {D : Type} {orig : List RouteEntry}

/-- A quiet reply of a call that has taken effect when it returns. -/
structure Honest (r : RouteReply D) : Prop where
  quiet : Quiet r
  effective : r.err = none → r.applied = true

/-- Table, journal in memory and journal on disk agree. -/
structure InStep (orig : List RouteEntry) (j : RouteJournal D) (st : GatewayState) (w : RouteWorld D) :
    Prop where
  journal : w.journal = some j
  file : w.file = some j
  table : w.table = orig ++ j.owned
  fresh : ∀ r ∈ j.owned, Fresh orig r
  nodup : j.owned.Nodup
  state : w.state = st

/-- `w'` differs from `w` by some of the routes `l` added. -/
structure Grown (l : List RouteEntry) (w w' : RouteWorld D) : Prop where
  state : w'.state = w.state
  snapshot : w'.journal.map RouteJournal.snapshot = w.journal.map RouteJournal.snapshot
  kept : ∀ r ∈ w.table, r ∈ w'.table
  new : ∀ r ∈ w'.table, r ∈ w.table ∨ r ∈ l

/-- `w'` differs from `w` by some of the routes `l` removed. -/
structure Lessened (l : List RouteEntry) (w w' : RouteWorld D) : Prop where
  state : w'.state = w.state
  snapshot : w'.journal.map RouteJournal.snapshot = w.journal.map RouteJournal.snapshot
  kept : ∀ r ∈ w.table, r ∈ w'.table ∨ r ∈ l
  old : ∀ r ∈ w'.table, r ∈ w.table

section Loops
variable {j : RouteJournal D} {st : GatewayState} {w : RouteWorld D}
  {I : Moment RouteEvent (RouteWorld D) → Prop}

/-! ## Single routes -/

theorem addOwned_inStep {route : RouteEntry} (h : InStep orig j st w)
    (hI : ∀ m, Grown [route] w m.after → I m) :
    Runs Honest I (addOwned route)
      (fun _ w' => InStep orig { j with owned := j.owned ++ [route] } st w' ∧ Grown [route] w w')
      (fun _ _ => True) w := by
  have hq : ∀ r : RouteReply D, Honest r → Quiet r := fun _ hr => hr.quiet
  have hsame : Grown [route] w w := ⟨rfl, rfl, fun _ hr => hr, fun _ hr => Or.inl hr⟩
  refine Runs.bind (listRoutes_runs hq (hI _ hsame) ?_ (fun _ => trivial))
  refine Runs.bind (Runs.refuse (fun hc => ?_) (fun _ => trivial))
  have hfree : ∀ x ∈ w.table, x.destination ≠ route.destination :=
    fun x hx he => hc (List.any_eq_true.mpr ⟨x, hx, by simp [he]⟩)
  refine Runs.bind (theJournal_runs h.journal (Runs.bind (setJournal_runs ?_)))
  have hnoted : Grown [route] w { w with journal := some { j with owned := j.owned ++ [route] } } :=
    ⟨rfl, by simp [h.journal], fun _ hr => hr, fun _ hr => Or.inl hr⟩
  have hsaved : Grown [route] w
      { w with
        journal := some { j with owned := j.owned ++ [route] }
        file := some { j with owned := j.owned ++ [route] } } :=
    ⟨rfl, by simp [h.journal], fun _ hr => hr, fun _ hr => Or.inl hr⟩
  have hadded : Grown [route] w
      { w with
        table := w.table ++ [route]
        journal := some { j with owned := j.owned ++ [route] }
        file := some { j with owned := j.owned ++ [route] } } :=
    ⟨rfl, by simp [h.journal], fun _ hr => List.mem_append_left _ hr, fun _ hr => List.mem_append.mp hr⟩
  refine Runs.bind (save_runs hq (hI _ hnoted) rfl (hI _ hsaved) (hI _ hnoted) ?_ (fun _ => trivial)
    (fun _ => trivial))
  refine addRoute_runs hq (hI _ hsaved) (fun r _ => ?_) (fun r hr he => ?_) (fun _ _ _ _ => trivial)
  · unfold routeAdded
    split
    · exact hI _ hadded
    · exact hI _ hsaved
  · unfold routeAdded
    rw [if_pos (hr.effective he)]
    refine ⟨⟨rfl, rfl, ?_, ?_, ?_, h.state⟩, hadded⟩
    · simp [h.table]
    · intro r hr
      cases List.mem_append.mp hr with
      | inl hr =>
        exact h.fresh r hr
      | inr hr =>
        rw [List.mem_singleton.mp hr]
        exact fun o ho => hfree o (by simp [h.table, ho])
    · refine List.nodup_append.mpr ⟨h.nodup, by simp, ?_⟩
      intro a ha b hb he
      rw [List.mem_singleton.mp hb] at he
      exact hfree a (by simp [h.table, ha]) (by rw [he])

theorem removeOwned_inStep {route : RouteEntry} (h : InStep orig j st w)
    (hI : ∀ m, Lessened [route] w m.after → I m) :
    Runs Honest I (removeOwned route)
      (fun _ w' => InStep orig { j with owned := j.owned.filter (· ≠ route) } st w' ∧
        Lessened [route] w w')
      (fun _ _ => True) w := by
  have hq : ∀ r : RouteReply D, Honest r → Quiet r := fun _ hr => hr.quiet
  have hsame : Lessened [route] w w := ⟨rfl, rfl, fun _ hr => Or.inl hr, fun _ hr => hr⟩
  refine Runs.bind (theJournal_runs h.journal (Runs.ite (fun hc => ?_) (fun hc => Runs.pure ?_)))
  · obtain ⟨r, hr, he⟩ := List.any_eq_true.mp hc
    rw [RoutePlanner.sameIdentity_iff] at he
    subst he
    have hkeep : orig.filter (· ≠ r) = orig := by
      rw [List.filter_eq_self]
      intro o ho
      have hne : o ≠ r := fun he => h.fresh r hr o ho (by rw [he])
      simpa using hne
    have hfilter : w.table.filter (· ≠ r) = orig ++ j.owned.filter (· ≠ r) := by
      rw [h.table, List.filter_append, hkeep]
    have hkept : ∀ x ∈ w.table, x ∈ w.table.filter (· ≠ r) ∨ x ∈ [r] := by
      intro x hx
      by_cases hxr : x = r
      · exact Or.inr (by simp [hxr])
      · exact Or.inl (List.mem_filter.mpr ⟨hx, by simpa using hxr⟩)
    have hold : ∀ x ∈ w.table.filter (· ≠ r), x ∈ w.table := fun x hx => (List.mem_filter.mp hx).1
    have hdeleted : Lessened [r] w { w with table := w.table.filter (· ≠ r) } := ⟨rfl, rfl, hkept, hold⟩
    have hstruck : ∀ f, Lessened [r] w
        { w with
          table := w.table.filter (· ≠ r)
          journal := some { j with owned := j.owned.filter (· ≠ r) }
          file := f } := fun f => ⟨rfl, by simp [h.journal], hkept, hold⟩
    -- the route is listed, so it is deleted
    refine Runs.bind (Runs.bind (listRoutes_runs hq (hI _ hsame) ?_ (fun _ => trivial)))
    refine Runs.ite (fun _ => ?_) (fun hmiss => ?_)
    · refine deleteRoute_runs hq (hI _ hsame) (fun reply _ => ?_) (fun reply hreply he => ?_)
        (fun _ _ _ _ => trivial)
      · unfold routeDeleted
        rw [RoutePlanner.not_sameIdentity]
        split
        · exact hI _ hdeleted
        · exact hI _ hsame
      · unfold routeDeleted
        rw [if_pos (hreply.effective he), RoutePlanner.not_sameIdentity]
        refine Runs.bind (listRoutes_runs hq (hI _ hdeleted) ?_ (fun _ => trivial))
        refine Runs.bind (Runs.refuse (fun _ => ?_) (fun _ => trivial))
        refine Runs.bind (theJournal_runs h.journal (Runs.bind (setJournal_runs ?_)))
        rw [RoutePlanner.not_sameIdentity]
        refine save_runs hq (hI _ (hstruck w.file)) rfl (hI _ (hstruck _)) (hI _ (hstruck w.file)) ?_
          (fun _ => trivial) (fun _ => trivial)
        refine ⟨⟨rfl, rfl, hfilter, ?_, h.nodup.filter _, h.state⟩, hstruck _⟩
        exact fun x hx => h.fresh x (List.mem_filter.mp hx).1
    · exact absurd (List.any_eq_true.mpr ⟨r, by simp [h.table, hr], by simp⟩) hmiss
  · have hnot : route ∉ j.owned := fun hr => hc (List.any_eq_true.mpr ⟨route, hr, by simp⟩)
    have hsameOwned : j.owned.filter (· ≠ route) = j.owned := by
      rw [List.filter_eq_self]
      intro x hx
      have hne : x ≠ route := fun he => hnot (he ▸ hx)
      simpa using hne
    rw [hsameOwned]
    exact ⟨h, hsame⟩

/-! ## Loops -/

theorem Grown.trans {l l' : List RouteEntry} {w₁ w₂ : RouteWorld D} (h : Grown l w w₁)
    (h' : Grown l' w₁ w₂) (hl : ∀ r ∈ l', r ∈ l) : Grown l w w₂ := by
  refine ⟨h'.state.trans h.state, h'.snapshot.trans h.snapshot, fun r hr => h'.kept r (h.kept r hr), ?_⟩
  intro r hr
  cases h'.new r hr with
  | inl hr =>
    exact h.new r hr
  | inr hr =>
    exact Or.inr (hl r hr)

theorem Lessened.trans {l l' : List RouteEntry} {w₁ w₂ : RouteWorld D} (h : Lessened l w w₁)
    (h' : Lessened l' w₁ w₂) (hl : ∀ r ∈ l', r ∈ l) : Lessened l w w₂ := by
  refine ⟨h'.state.trans h.state, h'.snapshot.trans h.snapshot, ?_, fun r hr => h.old r (h'.old r hr)⟩
  intro r hr
  cases h.kept r hr with
  | inl hr =>
    cases h'.kept r hr with
    | inl hr =>
      exact Or.inl hr
    | inr hr =>
      exact Or.inr (hl r hr)
  | inr hr =>
    exact Or.inr hr

theorem addAll_inStep {l : List RouteEntry} (h : InStep orig j st w)
    (hI : ∀ m, Grown l w m.after → I m) :
    Runs Honest I (each addOwned l)
      (fun _ w' => InStep orig { j with owned := j.owned ++ l } st w' ∧ Grown l w w')
      (fun _ _ => True) w := by
  let J : List RouteEntry → RouteWorld D → Prop := fun done w' =>
    InStep orig { j with owned := j.owned ++ done } st w' ∧ Grown l w w'
  have hstart : J [] w := by
    refine ⟨?_, ⟨rfl, rfl, fun _ hr => hr, fun _ hr => Or.inl hr⟩⟩
    rw [List.append_nil]
    exact h
  refine Runs.each_prefix (J := J) ?_ hstart
  intro done r left hl w' h'
  have hr : ∀ x ∈ [r], x ∈ l := by
    intro x hx
    rw [List.mem_singleton.mp hx, hl]
    simp
  refine (addOwned_inStep h'.1 (fun m hm => hI m (h'.2.trans hm hr))).mono ?_ (fun _ _ h => h)
  intro _ w'' h''
  refine ⟨?_, h'.2.trans h''.2 hr⟩
  rw [← List.append_assoc]
  exact h''.1

theorem removeAll_inStep {l : List RouteEntry} (h : InStep orig j st w)
    (hI : ∀ m, Lessened l w m.after → I m) :
    Runs Honest I (each removeOwned l)
      (fun _ w' => InStep orig { j with owned := j.owned.filter (· ∉ l) } st w' ∧ Lessened l w w')
      (fun _ _ => True) w := by
  let J : List RouteEntry → RouteWorld D → Prop := fun done w' =>
    InStep orig { j with owned := j.owned.filter (· ∉ done) } st w' ∧ Lessened l w w'
  have hstart : J [] w := by
    refine ⟨?_, ⟨rfl, rfl, fun _ hr => Or.inl hr, fun _ hr => hr⟩⟩
    have hall : j.owned.filter (· ∉ ([] : List RouteEntry)) = j.owned := by simp
    rw [hall]
    exact h
  refine Runs.each_prefix (J := J) ?_ hstart
  intro done r left hl w' h'
  have hr : ∀ x ∈ [r], x ∈ l := by
    intro x hx
    rw [List.mem_singleton.mp hx, hl]
    simp
  refine (removeOwned_inStep h'.1 (fun m hm => hI m (h'.2.trans hm hr))).mono ?_ (fun _ _ h => h)
  intro _ w'' h''
  refine ⟨?_, h'.2.trans h''.2 hr⟩
  have hmore : (j.owned.filter (· ∉ done)).filter (· ≠ r) = j.owned.filter (· ∉ done ++ [r]) := by
    rw [List.filter_filter]
    congr 1
    funext x
    simp [and_comm]
  rw [← hmore]
  exact h''.1

theorem InStep.setState (h : InStep orig j st w) (st' : GatewayState) :
    InStep orig j st' { w with state := st' } :=
  ⟨h.journal, h.file, h.table, h.fresh, h.nodup, rfl⟩

end Loops

/-! ## The property -/

/-- No failure has started a rollback. -/
def Forward (w : RouteWorld D) : Prop := w.state ≠ .rollingBack ∧ w.state ≠ .faulted

/-- The addresses in `S` and the physical gateway have their /32 via the physical
interface in the table. -/
def Shielded (S : IPAddress → Prop) (w : RouteWorld D) : Prop :=
  ∃ j gateway, w.journal = some j ∧ IPAddress.tryParse j.snapshot.physicalGateway = some gateway ∧
    ∀ ip, S ip ∨ ip = gateway → RoutePlanner.protectOne j.snapshot ip ∈ w.table

/-- A /1 route that was not in the table originally stands only behind the shield. -/
def NoRecursion (orig : List RouteEntry) (context : GatewayContext) (S : IPAddress → Prop)
    (w : RouteWorld D) : Prop :=
  Forward w → ∀ d ∈ RoutePlanner.default context, d ∉ orig → d ∈ w.table → Shielded S w

theorem NoRecursion.of_forall_not_mem {context : GatewayContext} {S : IPAddress → Prop} {w : RouteWorld D}
    (h : ∀ d ∈ RoutePlanner.default context, d ∉ orig → d ∉ w.table) : NoRecursion orig context S w :=
  fun _ d hd ho ht => absurd ht (h d hd ho)

theorem NoRecursion.of_protect {context : GatewayContext} {S : IPAddress → Prop}
    {snapshot : RouteSnapshot D} {endpoints : List IPAddress} {routes : List RouteEntry} {w : RouteWorld D}
    (hp : RoutePlanner.protect snapshot endpoints = .ok routes)
    (hsnap : w.journal.map RouteJournal.snapshot = some snapshot) (hS : ∀ ip, S ip → ip ∈ endpoints)
    (hall : ∀ ip, S ip ∨ IPAddress.tryParse snapshot.physicalGateway = some ip →
      RoutePlanner.protectOne snapshot ip ∈ routes → RoutePlanner.protectOne snapshot ip ∈ w.table) :
    NoRecursion orig context S w := by
  intro _ _ _ _ _
  obtain ⟨j, hj, rfl⟩ := Option.map_eq_some_iff.mp hsnap
  obtain ⟨gateway, hg, hmem⟩ := RoutePlanner.mem_protect hp
  refine ⟨j, gateway, hj, hg, ?_⟩
  intro ip hip
  rcases hip with hip | rfl
  · exact hall ip (Or.inl hip) ((hmem _).mpr ⟨ip, Or.inl (hS ip hip), rfl⟩)
  · exact hall ip (Or.inr hg) ((hmem _).mpr ⟨ip, Or.inr rfl, rfl⟩)

/-- An active gateway that protects the endpoints `prev`: the journal owns
`front`, the split default and `back`, and `front` has the protection of every
address that was an endpoint ever `since` the activation. -/
structure Protecting (orig : List RouteEntry) (context : GatewayContext) (prev : List IPAddress)
    (since : IPAddress → Prop) (j : RouteJournal D) (front back : List RouteEntry) (w : RouteWorld D) :
    Prop where
  inStep : InStep orig j .gatewayActive w
  owned : j.owned = front ++ RoutePlanner.default context ++ back
  protection : ∃ routes, RoutePlanner.protect j.snapshot prev = .ok routes ∧
    ∀ r, r ∈ routes ↔ r ∈ front ∨ r ∈ back
  since : ∀ ip, since ip ∨ IPAddress.tryParse j.snapshot.physicalGateway = some ip →
    RoutePlanner.protectOne j.snapshot ip ∈ front

/-! ## Activation -/

section Activation
variable {context : GatewayContext} {w : RouteWorld D}

/-- The moments of an activation. -/
def ActivationMoment (orig : List RouteEntry) (context : GatewayContext)
    (m : Moment RouteEvent (RouteWorld D)) : Prop :=
  NoRecursion orig context (· ∈ context.endpoints) m.after

theorem install_inStep {snapshot : RouteSnapshot D}
    (hindex : snapshot.physicalInterfaceIndex ≠ context.overlayInterfaceIndex)
    (h : InStep orig ⟨snapshot, [], false⟩ .capturing w) :
    Runs Honest (ActivationMoment orig context) (install context snapshot)
      (fun _ w' => ∃ j front, Protecting orig context context.endpoints (· ∈ context.endpoints) j front [] w')
      (fun _ _ => True) w := by
  have hq : ∀ r : RouteReply D, Honest r → Quiet r := fun _ hr => hr.quiet
  refine Runs.bind (Runs.ofExcept (fun routes hp => ?_) (fun _ _ => trivial))
  obtain ⟨gateway, hg, hmem⟩ := RoutePlanner.mem_protect hp
  -- from the last protection route on, a world that has them all is behind the shield
  have hshield : ∀ {w' : RouteWorld D}, w'.journal.map RouteJournal.snapshot = some snapshot →
      (∀ r ∈ routes, r ∈ w'.table) → NoRecursion orig context (· ∈ context.endpoints) w' :=
    fun hsnap hall => NoRecursion.of_protect hp hsnap (fun _ h => h) (fun _ _ hr => hall _ hr)
  refine Runs.seq (addAll_inStep h (fun m hm => ?_)) (fun _ w h => ?_)
  · refine NoRecursion.of_forall_not_mem (fun d hd ho ht => ?_)
    cases hm.new d ht with
    | inl ht =>
      rw [h.table, List.append_nil] at ht
      exact ho ht
    | inr ht =>
      exact RoutePlanner.not_mem_protect_default hp hd ht
  replace h := h.1
  have hprot : ∀ r ∈ routes, r ∈ w.table := fun r hr => by simp [h.table, hr]
  refine Runs.bind (setState_runs (Runs.bind (Runs.refuse (fun _ => ?_) (fun _ => trivial))))
  refine Runs.seq (addAll_inStep (h.setState _) (fun m hm => ?_)) (fun _ w h => ?_)
  · exact hshield (hm.snapshot.trans (by simp [h.journal])) (fun r hr => hm.kept r (hprot r hr))
  replace h := h.1
  replace hprot : ∀ r ∈ routes, r ∈ w.table := fun r hr => by simp [h.table, hr]
  have hhere : NoRecursion orig context (· ∈ context.endpoints) { w with state := .probing } :=
    hshield (by simp [h.journal]) hprot
  refine Runs.bind (setState_runs (Runs.bind ?_))
  refine checkProbe_runs hq hhere (fun healthy => ?_) (fun _ => trivial)
  refine Runs.bind (Runs.refuse (fun _ => ?_) (fun _ => trivial))
  refine Runs.bind (theJournal_runs h.journal (Runs.bind (setJournal_runs (Runs.bind ?_))))
  let flagged : RouteJournal D := ⟨snapshot, [] ++ routes ++ RoutePlanner.probe context, true⟩
  have hflag : ∀ f, NoRecursion orig context (· ∈ context.endpoints)
      { w with state := .probing, journal := some flagged, file := f } := fun _ => hshield rfl hprot
  have hready : InStep orig flagged .probing
      { w with state := .probing, journal := some flagged, file := some flagged } :=
    ⟨rfl, rfl, h.table, h.fresh, h.nodup, rfl⟩
  refine save_runs hq (hflag w.file) rfl (hflag _) (hflag w.file) ?_ (fun _ => trivial) (fun _ => trivial)
  refine Runs.bind ((applyDns_runs hq (hflag (some flagged)) hready ?_ (fun _ _ _ => trivial)).mono
    (fun _ w h => ?_) (fun _ _ h => h))
  · intro w d h
    have hmoved : InStep orig flagged .probing { w with dns := d } :=
      ⟨h.journal, h.file, h.table, h.fresh, h.nodup, h.state⟩
    exact ⟨hshield (by simp [h.journal, flagged]) (fun r hr => by simp [h.table, hr, flagged]), hmoved⟩
  replace hprot : ∀ r ∈ routes, r ∈ w.table := fun r hr => by simp [h.table, hr, flagged]
  refine Runs.seq (addAll_inStep h (fun m hm => ?_)) (fun _ w h => ?_)
  · exact hshield (hm.snapshot.trans (by simp [h.journal, flagged])) (fun r hr => hm.kept r (hprot r hr))
  replace h := h.1
  replace hprot : ∀ r ∈ routes, r ∈ w.table := fun r hr => by simp [h.table, hr, flagged]
  have hprobe : ∀ r ∈ routes, r ∉ RoutePlanner.probe context :=
    fun _ hr => RoutePlanner.not_mem_probe_protect hp hindex hr
  refine Runs.seq (removeAll_inStep h (fun m hm => ?_)) (fun _ w h => ?_)
  · refine hshield (hm.snapshot.trans (by simp [h.journal, flagged])) (fun r hr => ?_)
    cases hm.kept r (hprot r hr) with
    | inl ht =>
      exact ht
    | inr ht =>
      exact absurd ht (hprobe r hr)
  refine setState_runs ⟨_, routes, h.1.setState _, ?_, ⟨routes, hp, by simp⟩, ?_⟩
  · simp only [flagged, List.nil_append, List.append_nil]
    exact RoutePlanner.filter_probe hprobe
  · intro ip hip
    refine (hmem _).mpr ⟨ip, ?_, rfl⟩
    cases hip with
    | inl hip =>
      exact Or.inl hip
    | inr hip =>
      exact Or.inr (Option.some.inj (hip.symm.trans hg))

/-- The try block of `ActivateAsync` on an untouched controller. -/
theorem activateTry_inStep (hst : w.state = .physicalOnly) (ht : w.table = orig) :
    Runs Honest (ActivationMoment orig context) (activateTry context)
      (fun _ w' => ∃ j front, Protecting orig context context.endpoints (· ∈ context.endpoints) j front [] w')
      (fun _ _ => True) w := by
  have hq : ∀ r : RouteReply D, Honest r → Quiet r := fun _ hr => hr.quiet
  have hplain : ∀ m : Moment RouteEvent (RouteWorld D), m.after.table = orig → ActivationMoment orig context m :=
    fun m ht' => NoRecursion.of_forall_not_mem (fun d _ ho hd => ho (ht' ▸ hd))
  refine Runs.bind (Runs.get (Runs.ite (fun hc => absurd (hst.symm.trans hc) (by simp)) (fun _ => ?_)))
  refine Runs.bind (Runs.refuse (fun _ => ?_) (fun _ => trivial))
  refine Runs.bind (Runs.ofExcept (fun _ _ => ?_) (fun _ _ => trivial))
  refine Runs.bind (setState_runs (Runs.bind ?_))
  have hcap := hplain ⟨.foreign, { w with state := .capturing }, { w with state := .capturing }⟩ ht
  refine captureRoutes_runs hq hcap (fun snapshot => ?_) (fun _ => trivial)
  refine Runs.bind (Runs.refuse (fun hindex => Runs.bind ?_) (fun _ => trivial))
  refine captureDns_runs hq hcap ?_ (fun _ => trivial)
  refine Runs.bind (setJournal_runs (Runs.bind ?_))
  let j : RouteJournal D := ⟨{ snapshot with dnsState := some w.dns }, [], false⟩
  have hbegun : ∀ ev before f, ActivationMoment orig context
      ⟨ev, before, { w with state := .capturing, journal := some j, file := f }⟩ :=
    fun _ _ _ => hplain _ ht
  refine save_runs hq (hbegun _ _ w.file) rfl (hbegun _ _ _) (hbegun _ _ w.file) ?_ (fun _ => trivial)
    (fun _ => trivial)
  refine install_inStep ?_ ⟨rfl, rfl, by simp [ht], by simp, by simp, rfl⟩
  simpa using hindex

end Activation

/-! ## Updates -/

section Updates
variable {context : GatewayContext} {prev endpoints : List IPAddress} {since : IPAddress → Prop}
  {j : RouteJournal D} {front back : List RouteEntry} {w : RouteWorld D}

/-- The moments of an update of the endpoints `prev` to `endpoints`. -/
def UpdateMoment (orig : List RouteEntry) (context : GatewayContext) (prev endpoints : List IPAddress)
    (m : Moment RouteEvent (RouteWorld D)) : Prop :=
  NoRecursion orig context (fun ip => ip ∈ prev ∧ ip ∈ endpoints) m.after

/-- The host routes that an active gateway owns are its protection routes. -/
theorem Protecting.mem_hostRoutes (h : Protecting orig context prev since j front back w) {r : RouteEntry} :
    r ∈ j.owned.filter RoutePlanner.isHostRoute ↔ r ∈ front ∨ r ∈ back := by
  obtain ⟨routes, hp, hroutes⟩ := h.protection
  obtain ⟨gateway, _, hmem⟩ := RoutePlanner.mem_protect hp
  rw [List.mem_filter, h.owned, List.mem_append, List.mem_append]
  constructor
  · intro hr
    obtain ⟨(hr | hr) | hr, hhost⟩ := hr
    · exact Or.inl hr
    · rw [RoutePlanner.isHostRoute_default hr] at hhost
      exact absurd hhost (by simp)
    · exact Or.inr hr
  · intro hr
    obtain ⟨ip, _, he⟩ := (hmem r).mp ((hroutes r).mpr hr)
    refine ⟨?_, he ▸ RoutePlanner.isHostRoute_protectOne j.snapshot ip⟩
    cases hr with
    | inl hr =>
      exact Or.inl (Or.inl hr)
    | inr hr =>
      exact Or.inr hr

/-- The routes an update adds and those it removes. -/
theorem Protecting.mem_added (h : Protecting orig context prev since j front back w)
    {desired : List RouteEntry} {r : RouteEntry} :
    r ∈ desired.filter (fun route => !(j.owned.filter RoutePlanner.isHostRoute).any
        (fun current => RoutePlanner.sameIdentity current route)) ↔
      r ∈ desired ∧ ¬(r ∈ front ∨ r ∈ back) := by
  rw [← h.mem_hostRoutes]
  exact RoutePlanner.mem_filter_not_any

theorem Protecting.mem_stale (h : Protecting orig context prev since j front back w)
    {desired : List RouteEntry} {r : RouteEntry} :
    r ∈ (j.owned.filter RoutePlanner.isHostRoute).filter
        (fun route => !desired.any (fun current => RoutePlanner.sameIdentity current route)) ↔
      (r ∈ front ∨ r ∈ back) ∧ r ∉ desired := by
  rw [← h.mem_hostRoutes]
  exact RoutePlanner.mem_filter_not_any

/-- What an update leaves: `added` brings in what is missing, `stale` is what is
no longer desired. -/
theorem Protecting.updated (h : Protecting orig context prev since j front back w)
    {desired added stale : List RouteEntry} {w' : RouteWorld D}
    (hd : RoutePlanner.protect j.snapshot endpoints = .ok desired)
    (hadded : ∀ r, r ∈ added ↔ r ∈ desired ∧ ¬(r ∈ front ∨ r ∈ back))
    (hstale : ∀ r, r ∈ stale ↔ (r ∈ front ∨ r ∈ back) ∧ r ∉ desired)
    (h' : InStep orig { j with owned := (j.owned ++ added).filter (· ∉ stale) } .gatewayActive w') :
    Protecting orig context endpoints (fun ip => since ip ∧ ip ∈ endpoints)
      { j with owned := (j.owned ++ added).filter (· ∉ stale) } (front.filter (· ∉ stale))
      ((back ++ added).filter (· ∉ stale)) w' := by
  obtain ⟨routes, hp, hroutes⟩ := h.protection
  obtain ⟨_, _, hmem⟩ := RoutePlanner.mem_protect hp
  obtain ⟨gateway, hg, hdesired⟩ := RoutePlanner.mem_protect hd
  refine ⟨h', ?_, ⟨desired, hd, ?_⟩, ?_⟩
  · have hsplit : (RoutePlanner.default context).filter (· ∉ stale) = RoutePlanner.default context := by
      refine List.filter_eq_self.mpr (fun d hdef => ?_)
      have hnot : d ∉ stale := by
        intro hs
        obtain ⟨ip, _, he⟩ := (hmem d).mp ((hroutes d).mpr ((hstale d).mp hs).1)
        have hhost := RoutePlanner.isHostRoute_protectOne j.snapshot ip
        rw [← he, RoutePlanner.isHostRoute_default hdef] at hhost
        exact absurd hhost (by simp)
      simpa using hnot
    simp only [h.owned, List.filter_append, hsplit, List.append_assoc]
  · intro r
    simp only [List.mem_filter, List.mem_append, decide_eq_true_eq, hadded, hstale]
    tauto
  · intro ip hip
    have hin : RoutePlanner.protectOne j.snapshot ip ∈ desired := by
      refine (hdesired _).mpr ⟨ip, ?_, rfl⟩
      cases hip with
      | inl hip =>
        exact Or.inl hip.2
      | inr hip =>
        exact Or.inr (Option.some.inj (hip.symm.trans hg))
    have hfront : RoutePlanner.protectOne j.snapshot ip ∈ front := by
      refine h.since ip ?_
      cases hip with
      | inl hip =>
        exact Or.inl hip.1
      | inr hip =>
        exact Or.inr hip
    refine List.mem_filter.mpr ⟨hfront, ?_⟩
    rw [decide_eq_true_eq, hstale]
    exact fun hs => hs.2 hin

theorem updateTry_inStep (h : Protecting orig context prev since j front back w) :
    Runs Honest (UpdateMoment orig context prev endpoints) (updateTry endpoints)
      (fun _ w' => ∃ j' front' back',
        Protecting orig context endpoints (fun ip => since ip ∧ ip ∈ endpoints) j' front' back' w')
      (fun _ _ => True) w := by
  obtain ⟨routes, hp, hroutes⟩ := h.protection
  refine Runs.bind (Runs.get ?_)
  simp only [h.inStep.journal]
  refine Runs.ite (fun hst => absurd h.inStep.state hst) (fun _ => ?_)
  refine Runs.bind (Runs.ofExcept (fun desired hd => ?_) (fun _ _ => trivial))
  obtain ⟨gateway, hg, hdesired⟩ := RoutePlanner.mem_protect hd
  refine Runs.bind (Runs.refuse (fun _ => Runs.bind ?_) (fun _ => trivial))
  have howned : ∀ r ∈ routes, r ∈ w.table := by
    intro r hr
    rw [h.inStep.table, h.owned]
    cases (hroutes r).mp hr with
    | inl hr =>
      simp [hr]
    | inr hr =>
      simp [hr]
  -- the routes that must stay are desired ones, so they are never stale
  have hstay : ∀ ip, (ip ∈ prev ∧ ip ∈ endpoints) ∨
      IPAddress.tryParse j.snapshot.physicalGateway = some ip →
      RoutePlanner.protectOne j.snapshot ip ∈ desired := by
    intro ip hip
    refine (hdesired _).mpr ⟨ip, ?_, rfl⟩
    cases hip with
    | inl hip =>
      exact Or.inl hip.2
    | inr hip =>
      exact Or.inr (Option.some.inj (hip.symm.trans hg))
  refine (addAll_inStep h.inStep (fun m hm => ?_)).mono (fun _ w' h' => ?_) (fun _ _ hX => hX)
  · refine NoRecursion.of_protect hp (hm.snapshot.trans (by simp [h.inStep.journal])) (fun _ hip => hip.1) ?_
    exact fun ip _ hr => hm.kept _ (howned _ hr)
  refine (removeAll_inStep h'.1 (fun m hm => ?_)).mono (fun _ w'' h'' => ?_) (fun _ _ hX => hX)
  · refine NoRecursion.of_protect hp (hm.snapshot.trans (by simp [h'.1.journal])) (fun _ hip => hip.1) ?_
    intro ip hip hr
    cases hm.kept _ (h'.2.kept _ (howned _ hr)) with
    | inl ht =>
      exact ht
    | inr ht =>
      exact absurd (hstay ip hip) (h.mem_stale.mp ht).2
  exact ⟨_, _, _, h.updated hd (fun _ => h.mem_added) (fun _ => h.mem_stale) h''.1⟩

end Updates

end EasyTierHost
