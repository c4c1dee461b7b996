import EasyTierHost.Abstractions.AddressText
import EasyTierHost.Network.RouteMoves
import EasyTierHost.Network.RouteRecovery
import Mathlib.Data.List.Nodup

/- The journal lists each route once, in memory and on disk, whatever the replies:
   what an activation notes are different routes, what an update notes is not in the
   journal yet, and everything else only strikes entries. Between the notes of one
   loop the entries are a sublist of a known list (`OwnedWithin`), the routes noted so far
   in their order. -/
namespace EasyTierHost
open Effects Effects.Prog GatewayRouteController

variable {D : Type}

/-! ## The planned routes -/

/-- The address of a destination can be read off it. -/
theorem hostDestination_inj {a b c d : UInt8} {ip : IPAddress} (hip : isPhysicalUnicast ip = true)
    (h : (IPAddress.v4 a b c d).text ++ "/32" = ip.text ++ "/32") : IPAddress.v4 a b c d = ip := by
  have htext : (IPAddress.v4 a b c d).text = ip.text := by
    have hchars := congrArg String.toList h
    rw [String.toList_append, String.toList_append] at hchars
    exact String.toList_injective (List.append_cancel_right hchars)
  cases ip with
  | v4 a' b' c' d' => exact IPAddress.text_v4_inj htext
  | v6 t => cases hip

namespace RoutePlanner

theorem protectOne_inj {snapshot : RouteSnapshot D} {ip ip' : IPAddress} (hip : isPhysicalUnicast ip = true)
    (hip' : isPhysicalUnicast ip' = true) (h : protectOne snapshot ip = protectOne snapshot ip') : ip = ip' := by
  cases ip with
  | v4 a b c d => exact hostDestination_inj hip' (congrArg RouteEntry.destination h)
  | v6 t => cases hip

theorem nodup_protect {snapshot : RouteSnapshot D} {endpoints : List IPAddress} {routes : List RouteEntry}
    (h : protect snapshot endpoints = .ok routes) : routes.Nodup := by
  obtain ⟨gateway, -, rfl, hall⟩ := protect_ok h
  refine (nodup_eraseDups _).map_on (fun a ha b hb he => ?_)
  exact protectOne_inj (hall a (List.mem_eraseDups.mp ha)) (hall b (List.mem_eraseDups.mp hb)) he

/-- What an activation notes. -/
theorem nodup_planned {snapshot : RouteSnapshot D} {context : GatewayContext} {routes : List RouteEntry}
    (h : protect snapshot context.endpoints = .ok routes)
    (hindex : snapshot.physicalInterfaceIndex ≠ context.overlayInterfaceIndex) :
    (routes ++ probe context ++ default context).Nodup := by
  have hoverlay : (probe context ++ default context).Nodup := by simp [probe, default]
  rw [List.append_assoc, List.nodup_append]
  refine ⟨nodup_protect h, hoverlay, fun r hr x hx he => ?_⟩
  subst he
  cases List.mem_append.mp hx with
  | inl hx => exact not_mem_probe_protect h hindex hr hx
  | inr hx => exact not_mem_protect_default h hx hr

end RoutePlanner

/-! ## Distinct entries -/

/-- No route stands twice in the journal, in memory or on disk. -/
structure Distinct (w : RouteWorld D) : Prop where
  memory : ∀ j, w.journal = some j → j.owned.Nodup
  file : ∀ j, w.file = some j → j.owned.Nodup

/-- The entries in memory are some of `l`, in that order. -/
structure OwnedWithin (l : List RouteEntry) (w : RouteWorld D) : Prop where
  memory : ∀ j, w.journal = some j → j.owned.Sublist l
  file : ∀ j, w.file = some j → j.owned.Nodup

/-- A moment that leaves a journal file with distinct entries. -/
def DistinctFile (m : Moment RouteEvent (RouteWorld D)) : Prop :=
  ∀ j, m.after.file = some j → j.owned.Nodup

section OwnedWithin
variable {l : List RouteEntry} {w : RouteWorld D} {ok : RouteReply D → Prop}

theorem OwnedWithin.distinct (hl : l.Nodup) (h : OwnedWithin l w) : Distinct w :=
  ⟨fun j hj => (h.memory j hj).nodup hl, h.file⟩

theorem OwnedWithin.mono {l' : List RouteEntry} (h : OwnedWithin l w) (hl : l.Sublist l') : OwnedWithin l' w :=
  ⟨fun j hj => (h.memory j hj).trans hl, h.file⟩

theorem Distinct.within {j : RouteJournal D} (h : Distinct w) (hj : w.journal = some j) : OwnedWithin j.owned w := by
  refine ⟨fun j' hj' => ?_, h.file⟩
  rw [hj] at hj'
  cases hj'
  exact List.Sublist.refl _

/-- Entries are struck, and what is saved are the entries in memory. -/
theorem within_moves (hl : l.Nodup) : RemovalMoves ok DistinctFile (OwnedWithin l : RouteWorld D → Prop) where
  foreign := fun _ _ h _ => ⟨h.file, h.memory, h.file⟩
  strike := fun w j route h hj => by
    refine ⟨fun j' hj' => ?_, h.file⟩
    cases hj'
    exact List.filter_sublist.trans (h.memory j hj)
  flag := fun w j b h hj => by
    refine ⟨fun j' hj' => ?_, h.file⟩
    cases hj'
    exact h.memory j hj
  save := fun w j h hj => by
    have hsaved : ∀ j', some j = some j' → j'.owned.Nodup := by
      intro j' hj'
      cases hj'
      exact (h.memory j hj).nodup hl
    exact ⟨h.file, hsaved, h.memory, hsaved⟩
  delete := fun _ _ _ h _ _ => ⟨h.file, h.file, h.memory, h.file⟩
  dns := fun _ _ h => ⟨h.file, h.file, h.memory, h.file⟩

/-- The same of entries that are only known to be distinct. -/
theorem distinct_moves : RemovalMoves ok DistinctFile (Distinct : RouteWorld D → Prop) where
  foreign := fun _ _ h _ => ⟨h.file, h.memory, h.file⟩
  strike := fun w j route h hj => by
    refine ⟨fun j' hj' => ?_, h.file⟩
    cases hj'
    exact (h.memory j hj).filter _
  flag := fun w j b h hj => by
    refine ⟨fun j' hj' => ?_, h.file⟩
    cases hj'
    exact h.memory j hj
  save := fun w j h hj => by
    have hsaved : ∀ j', some j = some j' → j'.owned.Nodup := by
      intro j' hj'
      cases hj'
      exact h.memory j hj
    exact ⟨h.file, hsaved, h.memory, hsaved⟩
  delete := fun _ _ _ h _ _ => ⟨h.file, h.file, h.memory, h.file⟩
  dns := fun _ _ h => ⟨h.file, h.file, h.memory, h.file⟩

theorem addOwned_within {route : RouteEntry} (hl : (l ++ [route]).Nodup) (h : Open (OwnedWithin l) w) :
    Runs ok DistinctFile (addOwned route) (fun _ => Open (OwnedWithin (l ++ [route])))
      (fun _ => Open (OwnedWithin (l ++ [route]))) w := by
  obtain ⟨j, hj⟩ := Option.isSome_iff_exists.mp h.2
  have hbefore : l.Sublist (l ++ [route]) := List.sublist_append_left l [route]
  have hopen : ∀ {w' : RouteWorld D}, Holding (OwnedWithin l) (some j) w' → Open (OwnedWithin (l ++ [route])) w' :=
    fun h' => ⟨h'.1.mono hbefore, by simp [h'.2]⟩
  have M : RemovalMoves ok DistinctFile (OwnedWithin l : RouteWorld D → Prop) := within_moves (hl.sublist hbefore)
  have M' : RemovalMoves ok DistinctFile (OwnedWithin (l ++ [route]) : RouteWorld D → Prop) := within_moves hl
  have hw : Holding (OwnedWithin l) (some j) w := ⟨h.1, hj⟩
  refine Runs.bind ((listRoutes_moves M hw).mono (fun current w' h' => ?_) (fun _ _ h' => hopen h'))
  refine Runs.bind (Runs.refuse (fun _ => ?_) (fun _ => hopen h'.1))
  refine Runs.bind (theJournal_holding h'.1 (Runs.bind (Runs.modify ?_)))
  have hnoted : Holding (OwnedWithin (l ++ [route])) (some { j with owned := j.owned ++ [route] })
      { w' with journal := some { j with owned := j.owned ++ [route] } } := by
    refine ⟨⟨fun j' hj' => ?_, h'.1.1.file⟩, rfl⟩
    cases hj'
    exact (h'.1.1.memory j h'.1.2).append (List.Sublist.refl [route])
  refine Runs.bind ((save_moves M' hnoted).mono (fun _ w'' h'' => ?_) (fun _ _ h'' => h''.opened))
  refine Runs.bind (reply_moves M' h'' (fun r w₃ _ h₃ => Runs.bind (Runs.effect ?_ ?_)))
  · unfold DistinctFile
    split
    · exact h₃.1.file
    · exact h₃.1.file
  · have hadded : Holding (OwnedWithin (l ++ [route])) (some { j with owned := j.owned ++ [route] })
        (if r.applied then { w₃ with table := w₃.table ++ [route] } else w₃) := by
      split
      · exact ⟨⟨h₃.1.memory, h₃.1.file⟩, h₃.2⟩
      · exact h₃
    exact Runs.outcome (fun _ => hadded.opened) (fun _ _ => hadded.opened)

theorem addAll_within {added : List RouteEntry} (hl : (l ++ added).Nodup) (h : Open (OwnedWithin l) w) :
    Runs ok DistinctFile (each addOwned added) (fun _ => Open (OwnedWithin (l ++ added)))
      (fun _ => Open (OwnedWithin (l ++ added))) w := by
  let J : List RouteEntry → RouteWorld D → Prop := fun done => Open (OwnedWithin (l ++ done))
  refine Runs.each_prefix (J := J) (fun done r left hsplit w' h' => ?_) ?_
  · have hpart : (l ++ (done ++ [r])).Sublist (l ++ added) := by
      rw [hsplit, show done ++ r :: left = done ++ [r] ++ left by simp]
      exact (List.Sublist.refl l).append (List.sublist_append_left _ left)
    rw [← List.append_assoc] at hpart
    refine (addOwned_within (hl.sublist hpart) h').mono (fun _ w'' h'' => ?_) (fun _ w'' h'' => ?_)
    · show Open (OwnedWithin (l ++ (done ++ [r]))) w''
      rw [← List.append_assoc]
      exact h''
    · exact ⟨h''.1.mono hpart, h''.2⟩
  · show Open (OwnedWithin (l ++ [])) w
    rw [List.append_nil]
    exact h

end OwnedWithin

/-! ## The operations -/

section Operations
variable [DecidableEq D] {w : RouteWorld D} {ok : RouteReply D → Prop}

theorem rollbackInternal_distinct :
    Keeps ok DistinctFile Distinct (rollbackInternal : RouteM D Unit) := by
  intro w h
  cases hj : w.journal with
  | none =>
    refine Runs.bind (Runs.get ?_)
    simp only [hj]
    exact Runs.pure h
  | some j =>
    refine rollbackInternal_removes distinct_moves (by simp [hj]) ⟨h.memory, h.file⟩ (fun es w' h' => ?_)
      (fun _ _ h' => h'.1)
    refine finishRollback_ends (fun _ => ⟨fun _ hf => (by cases hf), ?_⟩) (fun _ => ?_)
    · exact ⟨fun _ hj' => (by cases hj'), fun _ hf => (by cases hf)⟩
    · exact ⟨h'.1.memory, h'.1.file⟩

omit [DecidableEq D] in
theorem install_distinct {context : GatewayContext} {snapshot : RouteSnapshot D}
    (hindex : snapshot.physicalInterfaceIndex ≠ context.overlayInterfaceIndex) (h : Open (OwnedWithin []) w) :
    Runs ok DistinctFile (install context snapshot) (fun _ => Distinct) (fun _ => Distinct) w := by
  have hstate : ∀ {l : List RouteEntry} {w : RouteWorld D} (st : GatewayState), Open (OwnedWithin l) w →
      Open (OwnedWithin l) { w with state := st } := fun _ h => ⟨⟨h.1.memory, h.1.file⟩, h.2⟩
  refine Runs.bind (Runs.ofExcept (fun routes hp => ?_) (fun _ _ => h.1.distinct List.nodup_nil))
  have hall := RoutePlanner.nodup_planned hp hindex
  have hboth := (List.nodup_append.mp hall).1
  have hroutes := (List.nodup_append.mp hboth).1
  have hadd : Runs ok DistinctFile (each addOwned routes) (fun _ => Open (OwnedWithin routes))
      (fun _ => Open (OwnedWithin routes)) w := addAll_within (by simpa using hroutes) h
  refine Runs.bind (hadd.mono (fun _ w h => ?_) (fun _ _ h => h.1.distinct hroutes))
  refine Runs.bind (Runs.modify (Runs.bind (Runs.refuse (fun _ => ?_)
    (fun _ => (hstate .underlayProtected h).1.distinct hroutes))))
  refine Runs.bind ((addAll_within hboth (hstate .underlayProtected h)).mono (fun _ w h => ?_)
    (fun _ _ h => h.1.distinct hboth))
  have M : RemovalMoves ok DistinctFile (OwnedWithin (routes ++ RoutePlanner.probe context) : RouteWorld D → Prop) :=
    within_moves hboth
  refine Runs.bind (Runs.modify (Runs.bind ?_))
  obtain ⟨j, hj⟩ := Option.isSome_iff_exists.mp h.2
  have hw : Holding (OwnedWithin (routes ++ RoutePlanner.probe context)) (some j) { w with state := .probing } :=
    ⟨(hstate .probing h).1, hj⟩
  refine (checkProbe_moves M hw).mono (fun healthy w h => ?_) (fun _ _ h => h.1.distinct hboth)
  refine Runs.bind (Runs.refuse (fun _ => ?_) (fun _ => h.1.distinct hboth))
  refine Runs.bind (theJournal_holding h (Runs.bind (Runs.modify (Runs.bind ?_))))
  have hflag := M.flag w j true h.1 h.2
  refine (save_moves M ⟨hflag, rfl⟩).mono (fun _ w h => ?_) (fun _ _ h => h.1.distinct hboth)
  refine Runs.bind ((applyDns_moves M h).mono (fun _ w h => ?_) (fun _ _ h => h.1.distinct hboth))
  refine Runs.bind ((addAll_within hall h.opened).mono (fun _ w h => ?_) (fun _ _ h => h.1.distinct hall))
  refine Runs.bind ((removeAll_moves (within_moves hall) _ w h).mono (fun _ w h => ?_)
    (fun _ _ h => h.1.distinct hall))
  exact Runs.modify ((hstate .gatewayActive h).1.distinct hall)

omit [DecidableEq D] in
theorem activateTry_distinct {context : GatewayContext} (h : Distinct w) :
    Runs ok DistinctFile (activateTry context) (fun _ => Distinct) (fun _ => Distinct) w := by
  refine Runs.bind (Runs.get (Runs.ite (fun _ => Runs.pure h) (fun _ => ?_)))
  refine Runs.bind (Runs.refuse (fun hclean => ?_) (fun _ => h))
  refine Runs.bind (Runs.ofExcept (fun _ _ => ?_) (fun _ _ => h))
  refine Runs.bind (Runs.modify (Runs.bind ?_))
  -- nothing is journalled yet
  have hempty : OwnedWithin [] { w with state := .capturing } := by
    refine ⟨fun j hj => ?_, h.file⟩
    simp [show w.journal = some j from hj] at hclean
  have M : RemovalMoves ok DistinctFile (OwnedWithin [] : RouteWorld D → Prop) := within_moves List.nodup_nil
  have hw : Holding (OwnedWithin []) w.journal { w with state := .capturing } := ⟨hempty, rfl⟩
  refine (captureRoutes_moves M hw).mono (fun s w' h' => ?_) (fun _ _ h' => h'.1.distinct List.nodup_nil)
  refine Runs.bind (Runs.refuse (fun hindex => Runs.bind ?_) (fun _ => h'.1.distinct List.nodup_nil))
  refine Runs.bind (reply_moves M h' (fun r w'' _ h'' => Runs.bind (Runs.outcome (fun _ => ?_)
    (fun _ _ => h''.1.distinct List.nodup_nil))))
  refine Runs.bind (Runs.get (Runs.pure (Runs.bind (Runs.modify (Runs.bind ?_)))))
  have hbegun : Holding (OwnedWithin []) (some (⟨{ s with dnsState := some w''.dns }, [], false⟩ : RouteJournal D))
      { w'' with journal := some ⟨{ s with dnsState := some w''.dns }, [], false⟩ } := by
    refine ⟨⟨fun j hj => ?_, h''.1.file⟩, rfl⟩
    cases hj
    exact List.nil_sublist _
  refine (save_moves M hbegun).mono (fun _ w₃ h₃ => ?_) (fun _ _ h₃ => h₃.1.distinct List.nodup_nil)
  exact install_distinct hindex h₃.opened

omit [DecidableEq D] in
/-- What an update notes is not in the journal: it is a host route, and the host
routes of the journal are left out. -/
theorem updateTry_distinct {endpoints : List IPAddress} (h : Distinct w) :
    Runs ok DistinctFile (updateTry endpoints) (fun _ => Distinct) (fun _ => Distinct) w := by
  refine Runs.bind (Runs.get ?_)
  cases hj : w.journal with
  | none => exact Runs.pure h
  | some j =>
    refine Runs.ite (fun _ => Runs.pure h) (fun _ => ?_)
    refine Runs.bind (Runs.ofExcept (fun desired hd => ?_) (fun _ _ => h))
    refine Runs.bind (Runs.refuse (fun _ => Runs.bind ?_) (fun _ => h))
    have hl : (j.owned ++ desired.filter (fun route => !(j.owned.filter RoutePlanner.isHostRoute).any
        (fun current => RoutePlanner.sameIdentity current route))).Nodup := by
      refine List.nodup_append.mpr ⟨h.memory j hj, (RoutePlanner.nodup_protect hd).filter _, ?_⟩
      intro r hr x hx he
      subst he
      obtain ⟨hdesired, hnot⟩ := RoutePlanner.mem_filter_not_any.mp hx
      obtain ⟨_, _, hmem⟩ := RoutePlanner.mem_protect hd
      obtain ⟨ip, _, rfl⟩ := (hmem r).mp hdesired
      exact hnot (List.mem_filter.mpr ⟨hr, RoutePlanner.isHostRoute_protectOne j.snapshot ip⟩)
    have hopen : Open (OwnedWithin j.owned) w := ⟨h.within hj, by simp [hj]⟩
    refine (addAll_within hl hopen).mono (fun _ w' h' => ?_) (fun _ _ h' => h'.1.distinct hl)
    exact (removeAll_moves (within_moves hl) _ w' h').mono (fun _ _ h'' => h''.1.distinct hl)
      (fun _ _ h'' => h''.1.distinct hl)

/-- Every operation keeps the entries distinct, whatever the replies. -/
theorem routeSystem_distinct (op : RouteOp) : Keeps ok DistinctFile Distinct ((routeSystem D).exec op) := by
  refine exec_keeps distinct_moves (fun _ _ h => ⟨h.memory, h.file⟩) (fun w j h hj => ?_)
    rollbackInternal_distinct (fun _ _ h => activateTry_distinct h) (fun _ _ h => updateTry_distinct h) op
  refine ⟨fun j' hj' => ?_, h.file⟩
  cases hj'
  exact h.file j hj

/-- In every state of every run, crashes included, the journal lists each route once. -/
theorem final_distinct {w₀ : RouteWorld D} (h : Untouched w₀) (steps : List (Step (RouteReply D) RouteOp)) :
    Distinct ((routeSystem D).final w₀ steps) := by
  have hstart : Distinct w₀ := by
    refine ⟨fun j hj => ?_, fun j hj => ?_⟩
    · rw [h.journal] at hj
      cases hj
    · rw [h.file] at hj
      cases hj
  have hop : ∀ st ∈ steps, Keeps (fun _ => True) DistinctFile Distinct ((routeSystem D).exec st.op) :=
    fun st _ => routeSystem_distinct st.op
  have hrestart : ∀ v : RouteWorld D, (∀ j, v.file = some j → j.owned.Nodup) → Distinct v.restart :=
    fun v hv => ⟨fun j hj => (by cases hj), hv⟩
  exact (System.keeps (fun m hm => hrestart m.after hm) (fun v hv => hrestart v hv.file) steps w₀ hop
    (fun _ _ _ => trivial) hstart).2

end Operations

end EasyTierHost
