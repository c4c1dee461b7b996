import EasyTierHost.Effects.WriteAhead
import EasyTierHost.Network.RouteCalls

/- The route journal as a write-ahead log. Its resources are routes and the DNS
   configuration; a route is live when it is in the table and was not there
   originally, DNS when it differs from how it was found. `RouteInv` says that
   the journal on disk and the one in memory cover what is live, that the
   original routes stand untouched at the front of the table, and that no
   journal owns a route whose destination an original route has. Every step of
   every operation keeps it, so it holds at every instant of every run,
   crashes and restarts included. -/
namespace EasyTierHost
open Effects Effects.Prog GatewayRouteController

/-- What a route transaction changes. -/
inductive RouteResource where
  | route (r : RouteEntry)
  | dns

/-- The resources a journal names. -/
def RouteJournal.names {D : Type} (j : RouteJournal D) : Set RouteResource :=
  fun x => match x with
  | .route r => r ∈ j.owned
  | .dns => j.dnsMayHaveChanged = true

@[simp] theorem RouteJournal.route_mem_names {D : Type} {j : RouteJournal D} {r : RouteEntry} :
    .route r ∈ j.names ↔ r ∈ j.owned := Iff.rfl

@[simp] theorem RouteJournal.dns_mem_names {D : Type} {j : RouteJournal D} :
    .dns ∈ j.names ↔ j.dnsMayHaveChanged = true := Iff.rfl

/-- No route of `orig` has the destination of `r`. -/
def Fresh (orig : List RouteEntry) (r : RouteEntry) : Prop :=
  ∀ o ∈ orig, o.destination ≠ r.destination

/-- A journal of a transaction over the table `orig` and the DNS state `d`. -/
structure RouteJournal.Sound {D : Type} (orig : List RouteEntry) (d : D) (j : RouteJournal D) : Prop where
  fresh : ∀ r ∈ j.owned, Fresh orig r
  dns : j.snapshot.dnsState = some d

namespace RouteWorld
variable {D : Type}

/-- The resources that differ from the table `orig` and the DNS state `d`. -/
def live (orig : List RouteEntry) (d : D) (w : RouteWorld D) : Set RouteResource :=
  fun x => match x with
  | .route r => r ∈ w.table ∧ r ∉ orig
  | .dns => w.dns ≠ d

/-- The world as a write-ahead log. -/
def log (orig : List RouteEntry) (d : D) (w : RouteWorld D) : Log RouteResource :=
  ⟨w.live orig d, (w.file.map RouteJournal.names).getD ∅, w.journal.map RouteJournal.names⟩

end RouteWorld

/-- The invariant of a world whose table was `orig` and whose DNS state was `d`
before the controller touched them. -/
structure RouteInv {D : Type} (orig : List RouteEntry) (d : D) (w : RouteWorld D) : Prop where
  covered : (w.log orig d).Covered
  table : ∃ extra, w.table = orig ++ extra ∧ ∀ r ∈ extra, Fresh orig r
  file : ∀ j, w.file = some j → j.Sound orig d
  journal : ∀ j, w.journal = some j → j.Sound orig d
  -- a journal that names anything has reached the disk
  anchored : ∀ j, w.journal = some j → w.file = none → j.owned = [] ∧ j.dnsMayHaveChanged = false
  active : w.state = .gatewayActive → w.journal.isSome → w.file.isSome

namespace RouteInv
variable {D : Type} {orig : List RouteEntry} {d : D} {w : RouteWorld D}

theorem not_mem_of_fresh {r : RouteEntry} (h : Fresh orig r) : r ∉ orig :=
  fun hr => h r hr rfl

/-! ## Single moves -/

theorem setState {s : GatewayState} (h : RouteInv orig d w) (hs : s ≠ .gatewayActive) :
    RouteInv orig d { w with state := s } :=
  { h with active := fun hs' => absurd hs' hs }

/-- A fresh controller. -/
theorem restart (h : RouteInv orig d w) : RouteInv orig d w.restart where
  covered := h.covered.forget
  table := h.table
  file := h.file
  journal := fun _ hj => by simp [RouteWorld.restart] at hj
  anchored := fun _ hj => by simp [RouteWorld.restart] at hj
  active := fun _ hj => by simp [RouteWorld.restart] at hj

/-- Saving the journal in memory. -/
theorem save {j : RouteJournal D} (h : RouteInv orig d w) (hj : w.journal = some j) :
    RouteInv orig d { w with file := some j } where
  covered := by
    have c := h.covered
    simp only [RouteWorld.log, hj, Option.map_some] at c ⊢
    exact c.flush
  table := h.table
  file := fun j' hj' => by
    simp only [Option.some.injEq] at hj'
    exact hj' ▸ h.journal j hj
  journal := h.journal
  anchored := fun _ _ hf => by simp at hf
  active := fun _ _ => rfl

/-- Reading the journal file into memory. -/
theorem load {j : RouteJournal D} (h : RouteInv orig d w) (hj : w.file = some j) :
    RouteInv orig d { w with journal := some j } where
  covered := by
    have c := h.covered
    simp only [RouteWorld.log, hj, Option.map_some, Option.getD_some] at c ⊢
    exact c.load
  table := h.table
  file := h.file
  journal := fun j' hj' => by
    simp only [Option.some.injEq] at hj'
    exact hj' ▸ h.file j hj
  anchored := fun _ _ hf => by simp [hj] at hf
  active := fun _ _ => by simp [hj]

/-- Noting a fresh route in memory. -/
theorem noteRoute {j : RouteJournal D} {route : RouteEntry} (h : RouteInv orig d w)
    (hj : w.journal = some j) (hf : w.file.isSome) (hr : Fresh orig route) :
    RouteInv orig d { w with journal := some { j with owned := j.owned ++ [route] } } where
  covered := by
    have c := h.covered
    simp only [RouteWorld.log, hj, Option.map_some] at c ⊢
    refine c.note ?_
    intro x hx
    cases x with
    | route r => exact List.mem_append_left _ hx
    | dns => exact hx
  table := h.table
  file := h.file
  journal := by
    intro _ he
    cases he
    refine ⟨?_, (h.journal j hj).dns⟩
    intro r hr'
    cases List.mem_append.mp hr' with
    | inl hr' =>
      exact (h.journal j hj).fresh r hr'
    | inr hr' =>
      rw [List.mem_singleton.mp hr']; exact hr
  anchored := fun _ _ hf' => by
    change w.file = none at hf'
    simp [hf'] at hf
  active := fun _ _ => hf

/-- Noting in memory that DNS may change. -/
theorem noteDns {j : RouteJournal D} (h : RouteInv orig d w) (hj : w.journal = some j)
    (hf : w.file.isSome) :
    RouteInv orig d { w with journal := some { j with dnsMayHaveChanged := true } } where
  covered := by
    have c := h.covered
    simp only [RouteWorld.log, hj, Option.map_some] at c ⊢
    refine c.note ?_
    intro x hx
    cases x with
    | route r => exact hx
    | dns => rfl
  table := h.table
  file := h.file
  journal := by
    intro _ he
    cases he
    exact ⟨(h.journal j hj).fresh, (h.journal j hj).dns⟩
  anchored := fun _ _ hf' => by
    change w.file = none at hf'
    simp [hf'] at hf
  active := fun _ _ => hf

/-- Beginning a transaction where none is open. -/
theorem begin {s : RouteSnapshot D} (h : RouteInv orig d w) (hf : w.file = none)
    (hs : s.dnsState = some w.dns) (hst : w.state ≠ .gatewayActive) :
    RouteInv orig d { w with journal := some ⟨s, [], false⟩ } := by
  have c := h.covered
  simp only [RouteWorld.log, hf, Option.map_none, Option.getD_none] at c
  have hd : w.dns = d := by
    by_contra hne
    have : RouteResource.dns ∈ w.live orig d := hne
    rw [c.live_empty] at this
    exact this
  exact {
    covered := by
      simp only [RouteWorld.log, hf, Option.map_none, Option.getD_none, Option.map_some]
      exact c.start
    table := h.table
    file := h.file
    journal := by
      intro _ he
      cases he
      exact ⟨fun r hr => by simp at hr, by rw [hs, hd]⟩
    anchored := by rintro _ ⟨⟩ _; exact ⟨rfl, rfl⟩
    active := fun hs' => absurd hs' hst }

/-- Adding a route that both journals own. -/
theorem addRoute {j j' : RouteJournal D} {route : RouteEntry} (h : RouteInv orig d w)
    (hj : w.journal = some j) (hf : w.file = some j') (hr : route ∈ j.owned)
    (hr' : route ∈ j'.owned) : RouteInv orig d { w with table := w.table ++ [route] } where
  covered := by
    have c := h.covered
    simp only [RouteWorld.log, hj, hf, Option.map_some, Option.getD_some] at c ⊢
    refine c.change (r := .route route) ?_ hr' hr
    intro x hx
    cases x with
    | route r =>
      obtain ⟨hmem, hne⟩ := hx
      cases List.mem_append.mp hmem with
      | inl hmem =>
        exact Or.inr ⟨hmem, hne⟩
      | inr hmem =>
        rw [List.mem_singleton.mp hmem]; exact Or.inl rfl
    | dns => exact Or.inr hx
  table := by
    obtain ⟨extra, ht, hfresh⟩ := h.table
    refine ⟨extra ++ [route], by simp [ht], ?_⟩
    intro r hr
    cases List.mem_append.mp hr with
    | inl hr =>
      exact hfresh r hr
    | inr hr =>
      rw [List.mem_singleton.mp hr]; exact (h.journal j hj).fresh route ‹_›
  file := h.file
  journal := h.journal
  anchored := h.anchored
  active := h.active

/-- Deleting a fresh route. -/
theorem deleteRoute {route : RouteEntry} (h : RouteInv orig d w) (hr : Fresh orig route) :
    RouteInv orig d
      { w with table := w.table.filter (fun x => !RoutePlanner.sameIdentity x route) } where
  covered := by
    refine h.covered.undo ?_
    intro x hx
    cases x with
    | route r => exact ⟨(List.mem_filter.mp hx.1).1, hx.2⟩
    | dns => exact hx
  table := by
    obtain ⟨extra, ht, hfresh⟩ := h.table
    refine ⟨extra.filter (fun x => !RoutePlanner.sameIdentity x route), ?_, ?_⟩
    · have horig : orig.filter (fun x => !RoutePlanner.sameIdentity x route) = orig := by
        rw [List.filter_eq_self]
        intro o ho
        simp only [Bool.not_eq_true', Bool.eq_false_iff, ne_eq, RoutePlanner.sameIdentity_iff]
        exact fun he => hr o ho (by rw [he])
      simp only [ht, List.filter_append, horig]
    · intro r hr
      exact hfresh r (List.mem_filter.mp hr).1
  file := h.file
  journal := h.journal
  anchored := h.anchored
  active := h.active

/-- Striking a route that is no longer in the table. -/
theorem strikeRoute {j : RouteJournal D} {route : RouteEntry} (h : RouteInv orig d w)
    (hj : w.journal = some j) (hr : route ∉ w.table) :
    RouteInv orig d
      { w with
        journal := some
          { j with owned := j.owned.filter (fun x => !RoutePlanner.sameIdentity x route) } } where
  covered := by
    have c := h.covered
    simp only [RouteWorld.log, hj, Option.map_some] at c ⊢
    refine c.strike ?_
    intro x hx hx' hlive
    cases x with
    | route r =>
      refine hx' (List.mem_filter.mpr ⟨hx, ?_⟩)
      simp only [Bool.not_eq_true', Bool.eq_false_iff, ne_eq, RoutePlanner.sameIdentity_iff]
      intro he
      subst he
      exact hr hlive.1
    | dns => exact hx' hx
  table := h.table
  file := h.file
  journal := by
    intro _ he
    cases he
    exact ⟨fun r hr => (h.journal j hj).fresh r (List.mem_filter.mp hr).1, (h.journal j hj).dns⟩
  anchored := by
    intro _ he hf
    cases he
    obtain ⟨ho, hd⟩ := h.anchored j hj hf
    exact ⟨by simp [ho], hd⟩
  active := fun hs _ => h.active hs (by simp [hj])

/-- Moving DNS where both journals say it may have changed. -/
theorem moveDns {j j' : RouteJournal D} {d' : D} (h : RouteInv orig d w)
    (hj : w.journal = some j) (hf : w.file = some j') (hc : j.dnsMayHaveChanged = true)
    (hc' : j'.dnsMayHaveChanged = true) : RouteInv orig d { w with dns := d' } where
  covered := by
    have c := h.covered
    simp only [RouteWorld.log, hj, hf, Option.map_some, Option.getD_some] at c ⊢
    refine c.change (r := .dns) ?_ hc' hc
    intro x hx
    cases x with
    | route r => exact Or.inr hx
    | dns => exact Or.inl rfl
  table := h.table
  file := h.file
  journal := h.journal
  anchored := h.anchored
  active := h.active

/-- Moving DNS, but not away from the captured state. -/
theorem restoreDns {d' : D} (h : RouteInv orig d w) (hd : w.dns = d → d' = d) :
    RouteInv orig d { w with dns := d' } where
  covered := by
    refine h.covered.undo ?_
    intro x hx
    cases x with
    | route r => exact hx
    | dns => exact fun he => hx (hd he)
  table := h.table
  file := h.file
  journal := h.journal
  anchored := h.anchored
  active := h.active

/-- Clearing the DNS flag in memory once DNS is as captured. -/
theorem strikeDns {j : RouteJournal D} (h : RouteInv orig d w) (hj : w.journal = some j)
    (hd : w.dns = d) :
    RouteInv orig d { w with journal := some { j with dnsMayHaveChanged := false } } where
  covered := by
    have c := h.covered
    simp only [RouteWorld.log, hj, Option.map_some] at c ⊢
    refine c.strike ?_
    intro x hx hx' hlive
    cases x with
    | route r => exact hx' hx
    | dns => exact hlive hd
  table := h.table
  file := h.file
  journal := by
    intro _ he
    cases he
    exact ⟨(h.journal j hj).fresh, (h.journal j hj).dns⟩
  anchored := by
    intro _ he hf
    cases he
    exact ⟨(h.anchored j hj hf).1, rfl⟩
  active := fun hs _ => h.active hs (by simp [hj])

/-- Deleting the file of a journal that names nothing. -/
theorem deleteFile {j : RouteJournal D} (h : RouteInv orig d w) (hj : w.journal = some j)
    (ho : j.owned = []) (hd : j.dnsMayHaveChanged = false) (hs : w.state ≠ .gatewayActive) :
    RouteInv orig d { w with file := none } where
  covered := by
    have c := h.covered
    simp only [RouteWorld.log, hj, Option.map_some, Option.map_none, Option.getD_none] at c ⊢
    refine c.clear ?_
    ext x
    cases x with
    | route r => simp [ho]
    | dns => simp [hd]
  table := h.table
  file := fun _ hf => by simp at hf
  journal := h.journal
  anchored := by
    intro j' hj' _
    rw [hj] at hj'
    cases hj'
    exact ⟨ho, hd⟩
  active := fun hs' => absurd hs' hs

theorem dropJournal (h : RouteInv orig d w) : RouteInv orig d { w with journal := none } where
  covered := h.covered.forget
  table := h.table
  file := h.file
  journal := fun _ hj => by simp at hj
  anchored := fun _ hj => by simp at hj
  active := fun _ hj => by simp at hj

/-- Without a journal file the table and DNS are the original ones. -/
theorem restored (h : RouteInv orig d w) (hf : w.file = none) : w.table = orig ∧ w.dns = d := by
  have c := h.covered
  simp only [RouteWorld.log, hf, Option.map_none, Option.getD_none] at c
  have hlive : ∀ x, x ∉ w.live orig d := by
    intro x hx
    rw [c.live_empty] at hx
    exact hx
  obtain ⟨extra, ht, hfresh⟩ := h.table
  refine ⟨?_, ?_⟩
  · cases extra with
    | nil => simpa using ht
    | cons r extra =>
      have hr : r ∈ w.table := by simp [ht]
      exact absurd ⟨hr, not_mem_of_fresh (hfresh r (by simp))⟩ (hlive (.route r))
  · by_contra hne
    exact hlive .dns hne

end RouteInv

end EasyTierHost
