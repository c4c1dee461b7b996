import EasyTierHost.Effects.Runs

/- Runs of a whole component: a sequence of operations, each with its own script
   of replies, and crashes. A crash stops an operation after some number of its
   effects; what the process held in memory is then lost (`restart`), what lies
   outside it stays. `System.keeps` is the induction every safety statement
   about such runs goes through: an invariant that each operation keeps and that
   survives a restart holds at every instant of every run. Where an operation
   keeps it only in some worlds, `System.Careful` is the condition on the run. -/
namespace Effects

/-- A component: its operations as programs, and what a fresh process finds. -/
structure System (E R W ε Op : Type) where
  exec : Op → Prog E R W ε Unit
  restart : W → W

/-- One entry of a run: an operation that ends by itself, or one that dies with
the process after `after` of its effects. -/
inductive Step (R Op : Type) where
  | call (op : Op) (script : Nat → R)
  | crash (op : Op) (script : Nat → R) (after : Nat)

namespace Step
variable {R Op : Type}

def op : Step R Op → Op
  | call op _ => op
  | crash op _ _ => op

def script : Step R Op → Nat → R
  | call _ s => s
  | crash _ s _ => s

/-- The process survives the step. -/
def completes : Step R Op → Bool
  | call _ _ => true
  | crash _ _ _ => false

end Step

namespace System
variable {E R W ε Op : Type} (S : System E R W ε Op)

/-- The effects of one step, in order. -/
def stepTrace (w : W) : Step R Op → List (Moment E W)
  | .call op s => (S.exec op s w).trace
  | .crash op s k => (S.exec op s w).trace.take k

/-- The world one step leaves. -/
def stepWorld (w : W) : Step R Op → W
  | .call op s => (S.exec op s w).world
  | .crash op s k => S.restart ((((S.exec op s w).trace.take k).map Moment.after).getLastD w)

/-- The effects of a run. -/
def trace : W → List (Step R Op) → List (Moment E W)
  | _, [] => []
  | w, st :: rest => S.stepTrace w st ++ trace (S.stepWorld w st) rest

/-- The world a run ends in. -/
def final : W → List (Step R Op) → W
  | w, [] => w
  | w, st :: rest => final (S.stepWorld w st) rest

theorem trace_append : ∀ (l₁ l₂ : List (Step R Op)) (w : W),
    S.trace w (l₁ ++ l₂) = S.trace w l₁ ++ S.trace (S.final w l₁) l₂
  | [], _, _ => rfl
  | st :: l₁, l₂, w => by
    simp only [List.cons_append, trace, final, trace_append l₁ l₂, List.append_assoc]

theorem final_append : ∀ (l₁ l₂ : List (Step R Op)) (w : W),
    S.final w (l₁ ++ l₂) = S.final (S.final w l₁) l₂
  | [], _, _ => rfl
  | _ :: l₁, l₂, _ => final_append l₁ l₂ _

variable {S} {ok : R → Prop} {I : Moment E W → Prop} {P : W → Prop}

theorem restart_getLastD {w : W} (hw : P (S.restart w)) :
    ∀ l : List W, (∀ v ∈ l, P (S.restart v)) → P (S.restart (l.getLastD w))
  | [], _ => hw
  | v :: l, h => by
    rw [List.getLastD_cons]
    exact restart_getLastD (h v List.mem_cons_self) l (fun u hu => h u (List.mem_cons_of_mem v hu))

/-- A crash within an operation leaves what its moments leave. -/
theorem crash_leaves (hI : ∀ m, I m → P (S.restart m.after)) {op : Op} {s : Nat → R} {w : W}
    {Q : Unit → W → Prop} {X : ε → W → Prop} (hop : Runs ok I (S.exec op) Q X w) (hs : ∀ n, ok (s n))
    (hw : P (S.restart w)) (k : Nat) :
    (∀ m ∈ S.stepTrace w (.crash op s k), I m) ∧ P (S.stepWorld w (.crash op s k)) := by
  obtain ⟨ht, _, _⟩ := hop s hs
  have htake : ∀ m ∈ (S.exec op s w).trace.take k, I m :=
    fun m hm => ht m (List.mem_of_mem_take hm)
  refine ⟨htake, restart_getLastD hw _ ?_⟩
  intro v hv
  obtain ⟨m, hm, rfl⟩ := List.mem_map.mp hv
  exact hI m (htake m hm)

/-- One step keeps what the operation keeps and a crash at any of its moments
leaves. -/
theorem step_keeps (hI : ∀ m, I m → P (S.restart m.after)) (hr : ∀ w, P w → P (S.restart w))
    {st : Step R Op} {w : W} (hop : Runs ok I (S.exec st.op) (fun _ => P) (fun _ => P) w)
    (hs : ∀ n, ok (st.script n)) (hw : P w) : (∀ m ∈ S.stepTrace w st, I m) ∧ P (S.stepWorld w st) := by
  cases st with
  | call op s =>
    obtain ⟨ht, hend, _⟩ := hop s hs
    exact ⟨ht, hend.always⟩
  | crash op s k => exact crash_leaves hI hop hs (hr w hw) k

/-- Every operation of the run is permitted in the world it is called in. -/
def Careful (S : System E R W ε Op) (A : W → Op → Prop) : W → List (Step R Op) → Prop
  | _, [] => True
  | w, st :: rest => A w st.op ∧ Careful S A (S.stepWorld w st) rest

theorem careful_of_forall {A : Op → Prop} : ∀ (steps : List (Step R Op)) (w : W),
    (∀ st ∈ steps, A st.op) → S.Careful (fun _ => A) w steps
  | [], _, _ => trivial
  | st :: rest, w, h =>
    ⟨h st List.mem_cons_self, careful_of_forall rest (S.stepWorld w st) (fun x hx => h x (List.mem_cons_of_mem st hx))⟩

/-- What every permitted operation keeps between operations, and a crash at any
moment leaves, holds throughout every careful run. -/
theorem keeps_careful {A : W → Op → Prop} (hI : ∀ m, I m → P (S.restart m.after))
    (hr : ∀ w, P w → P (S.restart w))
    (hop : ∀ op w, P w → A w op → Runs ok I (S.exec op) (fun _ => P) (fun _ => P) w) :
    ∀ (steps : List (Step R Op)) (w : W), S.Careful A w steps → (∀ st ∈ steps, ∀ n, ok (st.script n)) →
      P w → (∀ m ∈ S.trace w steps, I m) ∧ P (S.final w steps)
  | [], _, _, _, hw => ⟨fun _ hm => absurd hm List.not_mem_nil, hw⟩
  | st :: rest, w, hc, hs, hw => by
    obtain ⟨ht, hend⟩ := step_keeps hI hr (hop st.op w hw hc.1) (hs st List.mem_cons_self) hw
    obtain ⟨ht', hend'⟩ := keeps_careful hI hr hop rest (S.stepWorld w st) hc.2
      (fun x hx => hs x (List.mem_cons_of_mem st hx)) hend
    refine ⟨?_, hend'⟩
    intro m hm
    cases List.mem_append.mp hm with
    | inl hm =>
      exact ht m hm
    | inr hm =>
      exact ht' m hm

/-- What every operation keeps between operations, and a crash at any moment
leaves, holds throughout every run. -/
theorem keeps (hI : ∀ m, I m → P (S.restart m.after)) (hr : ∀ w, P w → P (S.restart w))
    (steps : List (Step R Op)) (w : W) (hop : ∀ st ∈ steps, Keeps ok I P (S.exec st.op))
    (hs : ∀ st ∈ steps, ∀ n, ok (st.script n)) (hw : P w) :
    (∀ m ∈ S.trace w steps, I m) ∧ P (S.final w steps) :=
  keeps_careful hI hr (fun _ w hw hop => hop w hw) steps w
    (careful_of_forall (A := fun op => Keeps ok I P (S.exec op)) steps w hop) hs hw

/-- Between restarts an invariant only has to survive the operations. -/
theorem keeps_calls : ∀ (steps : List (Step R Op)) (w : W),
    (∀ st ∈ steps, st.completes = true) → (∀ st ∈ steps, Keeps ok I P (S.exec st.op)) →
      (∀ st ∈ steps, ∀ n, ok (st.script n)) → P w → P (S.final w steps)
  | [], _, _, _, _, hw => hw
  | .call op s :: rest, w, hc, hop, hs, hw => by
    refine keeps_calls rest _ (fun x hx => hc x (List.mem_cons_of_mem _ hx))
      (fun x hx => hop x (List.mem_cons_of_mem _ hx)) (fun x hx => hs x (List.mem_cons_of_mem _ hx)) ?_
    obtain ⟨_, hend, _⟩ := hop _ List.mem_cons_self w hw s (hs _ List.mem_cons_self)
    exact hend.always
  | .crash op s k :: rest, _, hc, _, _, _ => by
    have := hc _ List.mem_cons_self
    simp [Step.completes] at this

end System

end Effects
