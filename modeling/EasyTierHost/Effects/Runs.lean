import EasyTierHost.Effects.Prog

/- A program logic for the programs of `Prog`. `Runs ok I x Q X w` says: run
   from the world `w` with any script of replies that satisfy `ok`, every moment
   of `x` satisfies `I`, a returned value satisfies `Q` and an exception `X`.
   The postconditions may themselves be `Runs` statements, so the rule for
   sequencing needs no intermediate assertion: a proof walks down the program,
   and a callee is passed by the `Runs` statement proved about it (`Runs.mono`).

   The moment predicate `I` is what makes this a logic for crashes: it is
   charged at every external effect, not only at the end. -/
namespace Effects
open Prog

variable {E R W ε α β γ : Type}

/-- What a run owes at its end. -/
def Ends (Q : α → W → Prop) (X : ε → W → Prop) : Except ε α → W → Prop
  | .ok a, w => Q a w
  | .error e, w => X e w

theorem Ends.returned {Q : α → W → Prop} {X : ε → W → Prop} {r : Except ε α} {w : W}
    (h : Ends Q X r w) (hr : r.isOk = true) : ∃ a, Q a w := by
  cases r with
  | ok a => exact ⟨a, h⟩
  | error e => simp [Except.isOk, Except.toBool] at hr

theorem Ends.threw {Q : α → W → Prop} {X : ε → W → Prop} {r : Except ε α} {w : W}
    (h : Ends Q X r w) (hr : r.isOk = false) : ∃ e, X e w := by
  cases r with
  | ok a => simp [Except.isOk, Except.toBool] at hr
  | error e => exact ⟨e, h⟩

theorem Ends.mono {Q Q' : α → W → Prop} {X X' : ε → W → Prop} {r : Except ε α} {w : W}
    (h : Ends Q X r w) (hQ : ∀ a w, Q a w → Q' a w) (hX : ∀ e w, X e w → X' e w) : Ends Q' X' r w := by
  cases r with
  | ok a => exact hQ a w h
  | error e => exact hX e w h

/-- However it ended. -/
theorem Ends.always {P : W → Prop} {r : Except ε α} {w : W}
    (h : Ends (fun _ => P) (fun _ => P) r w) : P w := by
  cases r with
  | ok a => exact h
  | error e => exact h

/-- Run from `w` on allowed replies, `x` passes only through moments in `I` and
ends in `Q` or throws in `X`. -/
def Runs (ok : R → Prop) (I : Moment E W → Prop) (x : Prog E R W ε α)
    (Q : α → W → Prop) (X : ε → W → Prop) (w : W) : Prop :=
  ∀ s, (∀ n, ok (s n)) →
    (∀ m ∈ (x s w).trace, I m) ∧ Ends Q X (x s w).result (x s w).world ∧
      ∀ n, ok ((x s w).rest n)

/-- `Runs` for any replies, with nothing asked of the moments. -/
abbrev Freely (x : Prog E R W ε α) (Q : α → W → Prop) (X : ε → W → Prop) (w : W) : Prop :=
  Runs (fun _ => True) (fun _ => True) x Q X w

namespace Runs
variable {ok : R → Prop} {I : Moment E W → Prop} {x : Prog E R W ε α}
  {Q Q' : α → W → Prop} {X X' : ε → W → Prop} {w : W}

theorem andThen {f : α → Prog E R W ε β} {h : ε → Prog E R W ε β} {Q : β → W → Prop}
    (hx : Runs ok I x (fun a => Runs ok I (f a) Q X) (fun e => Runs ok I (h e) Q X) w) :
    Runs ok I (x.andThen f h) Q X w := by
  intro s hs
  have hxs := hx s hs
  simp only [Prog.andThen]
  split
  · next t a w' s' heq =>
    rw [heq] at hxs
    obtain ⟨ht, hr, hrest⟩ := hxs
    obtain ⟨ht', hr', hrest'⟩ := hr s' hrest
    refine ⟨?_, hr', hrest'⟩
    intro m hm
    cases List.mem_append.mp hm with
    | inl hm =>
      exact ht m hm
    | inr hm =>
      exact ht' m hm
  · next t e w' s' heq =>
    rw [heq] at hxs
    obtain ⟨ht, hr, hrest⟩ := hxs
    obtain ⟨ht', hr', hrest'⟩ := hr s' hrest
    refine ⟨?_, hr', hrest'⟩
    intro m hm
    cases List.mem_append.mp hm with
    | inl hm =>
      exact ht m hm
    | inr hm =>
      exact ht' m hm

theorem ret {a : α} (h : Q a w) : Runs ok I (Prog.ret a : Prog E R W ε α) Q X w :=
  fun _ hs => ⟨fun _ hm => absurd hm List.not_mem_nil, h, hs⟩

theorem raise {e : ε} (h : X e w) : Runs ok I (Prog.raise e : Prog E R W ε α) Q X w :=
  fun _ hs => ⟨fun _ hm => absurd hm List.not_mem_nil, h, hs⟩

theorem mono (hx : Runs ok I x Q X w) (hQ : ∀ a w, Q a w → Q' a w)
    (hX : ∀ e w, X e w → X' e w) : Runs ok I x Q' X' w := by
  intro s hs
  obtain ⟨ht, hr, hrest⟩ := hx s hs
  exact ⟨ht, hr.mono hQ hX, hrest⟩

/-- Weaken the moment predicate. -/
theorem mono_moment {I' : Moment E W → Prop} (hx : Runs ok I x Q X w) (hI : ∀ m, I m → I' m) :
    Runs ok I' x Q X w := by
  intro s hs
  obtain ⟨ht, hr, hrest⟩ := hx s hs
  exact ⟨fun m hm => hI m (ht m hm), hr, hrest⟩

/-- Two things said of the same runs. -/
theorem and {I' : Moment E W → Prop} (hx : Runs ok I x Q X w) (hx' : Runs ok I' x Q' X' w) :
    Runs ok (fun m => I m ∧ I' m) x (fun a w => Q a w ∧ Q' a w) (fun e w => X e w ∧ X' e w) w := by
  intro s hs
  obtain ⟨ht, hr, hrest⟩ := hx s hs
  obtain ⟨ht', hr', _⟩ := hx' s hs
  refine ⟨fun m hm => ⟨ht m hm, ht' m hm⟩, ?_, hrest⟩
  cases hres : (x s w).result with
  | ok a =>
    rw [hres] at hr hr'
    exact ⟨hr, hr'⟩
  | error e =>
    rw [hres] at hr hr'
    exact ⟨hr, hr'⟩

/-! ## The monad's operations -/

theorem pure {a : α} (h : Q a w) : Runs ok I (pure a : Prog E R W ε α) Q X w := ret h

theorem throw {e : ε} (h : X e w) : Runs ok I (throw e : Prog E R W ε α) Q X w := raise h

theorem bind {f : α → Prog E R W ε β} {Q : β → W → Prop}
    (hx : Runs ok I x (fun a => Runs ok I (f a) Q X) X w) : Runs ok I (x >>= f) Q X w :=
  andThen (hx.mono (fun _ _ h => h) (fun _ _ h => raise h))

/-- The first part is run for a postcondition of its own; what it throws is thrown. -/
theorem seq {f : α → Prog E R W ε β} {P : α → W → Prop} {Q : β → W → Prop} (hx : Runs ok I x P X w)
    (hf : ∀ a w', P a w' → Runs ok I (f a) Q X w') : Runs ok I (x >>= f) Q X w :=
  bind (hx.mono hf (fun _ _ h => h))

/-- Sequencing where the first part is itself a sequence that was proved as one. -/
theorem bind_assoc {y : Prog E R W ε β} {f : β → Prog E R W ε γ} {Q : γ → W → Prop}
    (hx : Runs ok I (x >>= fun _ => y) (fun b => Runs ok I (f b) Q X) X w) :
    Runs ok I (x >>= fun _ => y >>= f) Q X w := by
  have h := bind hx
  have he : (x >>= fun _ => y) >>= f = x >>= fun _ => y >>= f := by
    change (x.andThen (fun _ => y) Prog.raise).andThen f Prog.raise =
      x.andThen (fun _ => y.andThen f Prog.raise) Prog.raise
    simp only [andThen_assoc, raise_andThen]
  rw [he] at h
  exact h

theorem tryCatch {h : ε → Prog E R W ε α}
    (hx : Runs ok I x Q (fun e => Runs ok I (h e) Q X) w) : Runs ok I (tryCatch x h) Q X w :=
  andThen (hx.mono (fun _ _ h => ret h) (fun _ _ h => h))

theorem andFinally {y : Prog E R W ε Unit}
    (hx : Runs ok I x (fun a => Runs ok I y (fun _ => Q a) X)
      (fun e => Runs ok I y (fun _ => X e) X) w) : Runs ok I (x.andFinally y) Q X w :=
  andThen (hx.mono (fun _ _ h => andThen (h.mono (fun _ _ h => ret h) (fun _ _ h => raise h)))
    (fun _ _ h => andThen (h.mono (fun _ _ h => raise h) (fun _ _ h => raise h))))

theorem finallyIfEnded {x : Prog E R W ε Bool} {y : Prog E R W ε Unit} {Q : Bool → W → Prop}
    (hx : Runs ok I x (fun ended w => if ended then Runs ok I y (fun _ => Q true) X w else Q false w)
      (fun e => Runs ok I y (fun _ => X e) X) w) : Runs ok I (x.finallyIfEnded y) Q X w := by
  refine andThen (hx.mono (fun ended w h => ?_) (fun _ _ h => ?_))
  · cases ended with
    | true => exact andThen (Runs.mono h (fun _ _ h => ret h) (fun _ _ h => raise h))
    | false => exact ret h
  · exact andThen (h.mono (fun _ _ h => raise h) (fun _ _ h => raise h))

/-- With nothing promised, nothing is owed. -/
theorem trivially : Freely x (fun _ _ => True) (fun _ _ => True) w := by
  intro s _
  refine ⟨fun _ _ => trivial, ?_, fun _ => trivial⟩
  cases (x s w).result with
  | ok a => trivial
  | error e => trivial

theorem ite {c : Prop} [Decidable c] {y : Prog E R W ε α}
    (hx : c → Runs ok I x Q X w) (hy : ¬c → Runs ok I y Q X w) :
    Runs ok I (if c then x else y) Q X w := by
  by_cases h : c
  · simp only [h, if_true]; exact hx h
  · simp only [h, if_false]; exact hy h

theorem get {Q : W → W → Prop} (h : Q w w) : Runs ok I (get : Prog E R W ε W) Q X w :=
  fun _ hs => ⟨fun _ hm => absurd hm List.not_mem_nil, h, hs⟩

theorem modify {f : W → W} {Q : Unit → W → Prop} (h : Q () (f w)) :
    Runs ok I (modify f : Prog E R W ε Unit) Q X w :=
  fun _ hs => ⟨fun _ hm => absurd hm List.not_mem_nil, h, hs⟩

theorem ask {Q : R → W → Prop} (h : ∀ r, ok r → Q r w) : Runs ok I (ask : Prog E R W ε R) Q X w :=
  fun s hs => ⟨fun _ hm => absurd hm List.not_mem_nil, h (s 0) (hs 0), fun n => hs (n + 1)⟩

theorem effect {ev : E} {f : W → W} {Q : Unit → W → Prop} (hI : I ⟨ev, w, f w⟩) (h : Q () (f w)) :
    Runs ok I (effect ev f : Prog E R W ε Unit) Q X w := by
  intro s hs
  refine ⟨?_, h, hs⟩
  intro m hm
  simp only [Prog.effect, List.mem_singleton] at hm
  rw [hm]; exact hI

/-- An effect that takes place only if `c` holds. -/
theorem effectIf {ev : E} {c : Prop} [Decidable c] {f : W → W} {Q : Unit → W → Prop}
    (hdone : c → I ⟨ev, w, f w⟩ ∧ Q () (f w)) (hnot : ¬c → I ⟨ev, w, w⟩ ∧ Q () w) :
    Runs ok I (Prog.effect ev (fun w => if c then f w else w) : Prog E R W ε Unit) Q X w := by
  by_cases hc : c
  · simp only [hc, if_true]
    exact effect (hdone hc).1 (hdone hc).2
  · simp only [hc, if_false]
    exact effect (hnot hc).1 (hnot hc).2

theorem outcome {o : Option ε} {Q : Unit → W → Prop} (h : o = none → Q () w)
    (hX : ∀ e, o = some e → X e w) : Runs ok I (outcome o : Prog E R W ε Unit) Q X w := by
  cases o with
  | none => exact ret (h rfl)
  | some e => exact raise (hX e rfl)

theorem refuse {c : Prop} [Decidable c] {e : ε} {Q : Unit → W → Prop} (h : ¬c → Q () w)
    (hX : c → X e w) : Runs ok I (refuse c e : Prog E R W ε Unit) Q X w :=
  ite (fun hc => raise (hX hc)) (fun hc => ret (h hc))

theorem ofExcept {v : Except ε α} (h : ∀ a, v = .ok a → Q a w) (hX : ∀ e, v = .error e → X e w) :
    Runs ok I (ofExcept v : Prog E R W ε α) Q X w := by
  cases v with
  | ok a => exact ret (h a rfl)
  | error e => exact raise (hX e rfl)

/-- A program about a part of the world runs as it does on that part. -/
theorem zoom {E' W' : Type} {part : W' → W} {put : W → W' → W'} {ev : E → E'} {I' : Moment E' W' → Prop}
    {Q' : α → W' → Prop} {X' : ε → W' → Prop} {w : W'} (hx : Runs ok I x Q X (part w))
    (hI : ∀ m, I m → I' ⟨ev m.event, put m.before w, put m.after w⟩)
    (hQ : ∀ a v, Q a v → Q' a (put v w)) (hX : ∀ e v, X e v → X' e (put v w)) :
    Runs ok I' (x.zoom part put ev) Q' X' w := by
  intro s hs
  obtain ⟨ht, hr, hrest⟩ := hx s hs
  refine ⟨?_, ?_, hrest⟩
  · intro m hm
    obtain ⟨m', hm', rfl⟩ := List.mem_map.mp hm
    exact hI m' (ht m' hm')
  · simp only [Prog.zoom]
    cases hres : (x s (part w)).result with
    | ok a => rw [hres] at hr; exact hQ a _ hr
    | error e => rw [hres] at hr; exact hX e _ hr

/-! ## Loops -/

/-- Loop rule: `J` relates the elements already run to the world. -/
theorem each_prefix {f : β → Prog E R W ε Unit} {l : List β} {J : List β → W → Prop}
    (hf : ∀ done b left, l = done ++ b :: left → ∀ w, J done w →
      Runs ok I (f b) (fun _ => J (done ++ [b])) X w) (h : J [] w) :
    Runs ok I (each f l) (fun _ => J l) X w := by
  suffices H : ∀ left done w, l = done ++ left → J done w →
      Runs ok I (each f left) (fun _ => J l) X w from H l [] w rfl h
  intro left
  induction left with
  | nil =>
    intro done w hl hJ
    rw [List.append_nil] at hl
    exact ret (hl ▸ hJ)
  | cons b left ih =>
    intro done w hl hJ
    refine andThen ((hf done b left hl w hJ).mono (fun _ w h => ?_) (fun _ _ h => raise h))
    exact ih (done ++ [b]) w (by simp [hl]) h

/-- Loop rule for an invariant that does not look at the elements. -/
theorem each_inv {f : β → Prog E R W ε Unit} {l : List β} {J : W → Prop}
    (hf : ∀ b ∈ l, ∀ w, J w → Runs ok I (f b) (fun _ => J) X w) (h : J w) :
    Runs ok I (each f l) (fun _ => J) X w :=
  each_prefix (J := fun _ => J) (fun _ b _ hl w hJ => hf b (by simp [hl]) w hJ) h

/-- Collecting rule: `J` relates the elements already run and the exceptions they
threw to the world. -/
theorem collect_prefix {f : β → Prog E R W ε Unit} {l : List β} {J : List β → List (β × ε) → W → Prop}
    (hf : ∀ done b left es, l = done ++ b :: left → ∀ w, J done es w →
      Runs ok I (f b) (fun _ => J (done ++ [b]) es) (fun e => J (done ++ [b]) (es ++ [(b, e)])) w)
    (h : J [] [] w) : Runs ok I (collect f l) (fun es => J l es) X w := by
  suffices H : ∀ left done es₀ w, l = done ++ left → J done es₀ w →
      Runs ok I (collect f left) (fun es => J l (es₀ ++ es)) X w by
    simpa using H l [] [] w rfl h
  intro left
  induction left with
  | nil =>
    intro done es₀ w hl hJ
    rw [List.append_nil] at hl
    refine ret ?_
    rw [List.append_nil]
    exact hl ▸ hJ
  | cons b left ih =>
    intro done es₀ w hl hJ
    have hl' : l = (done ++ [b]) ++ left := by simp [hl]
    refine andThen ((hf done b left es₀ hl w hJ).mono (fun _ w h => ih _ _ w hl' h) ?_)
    intro e w h
    refine andThen ((ih _ _ w hl' h).mono (fun es w h => ret ?_) (fun _ _ h => raise h))
    simpa using h

theorem attemptIf {c : Bool} {x : Prog E R W ε Unit} {Q : List ε → W → Prop}
    (hx : c = true → Runs ok I x (fun _ => Q []) (fun e => Q [e]) w) (h : c = false → Q [] w) :
    Runs ok I (attemptIf c x) Q X w := by
  cases c with
  | true => exact andThen ((hx rfl).mono (fun _ _ h => ret h) (fun _ _ h => ret h))
  | false => exact ret (h rfl)

end Runs

/-! ## Runs that keep to an assumption

Some of what the environment promises is about particular effects, such as a save
that succeeds, and is said of the moments of a run. -/

/-- Run from `w`, as long as the moments of `x` satisfy `A` they satisfy `I`, and if
all of them do, a returned value satisfies `Q` and an exception `X`. -/
def RunsIf (A I : Moment E W → Prop) (x : Prog E R W ε α) (Q : α → W → Prop) (X : ε → W → Prop)
    (w : W) : Prop :=
  ∀ s, (∀ k, (∀ m ∈ (x s w).trace.take k, A m) → ∀ m ∈ (x s w).trace.take k, I m) ∧
    ((∀ m ∈ (x s w).trace, A m) → Ends Q X (x s w).result (x s w).world)

namespace RunsIf
variable {A I : Moment E W → Prop} {x : Prog E R W ε α} {Q Q' : α → W → Prop} {X X' : ε → W → Prop}
  {w : W}

/-- What needs no assumption. -/
theorem of_runs (hx : Runs (fun _ => True) I x Q X w) : RunsIf A I x Q X w := by
  intro s
  obtain ⟨ht, hr, _⟩ := hx s (fun _ => trivial)
  exact ⟨fun _ _ m hm => ht m (List.mem_of_mem_take hm), fun _ => hr⟩

theorem mono (hx : RunsIf A I x Q X w) (hQ : ∀ a w, Q a w → Q' a w) (hX : ∀ e w, X e w → X' e w) :
    RunsIf A I x Q' X' w := by
  intro s
  obtain ⟨ht, hr⟩ := hx s
  exact ⟨ht, fun hs => (hr hs).mono hQ hX⟩

/-- Of a trace in two parts, the second is looked at only where the first has kept to
the assumption. -/
theorem take_append {t t' : List (Moment E W)}
    (ht : ∀ k, (∀ m ∈ t.take k, A m) → ∀ m ∈ t.take k, I m)
    (ht' : (∀ m ∈ t, A m) → ∀ k, (∀ m ∈ t'.take k, A m) → ∀ m ∈ t'.take k, I m) (k : Nat)
    (hA : ∀ m ∈ (t ++ t').take k, A m) : ∀ m ∈ (t ++ t').take k, I m := by
  rw [List.take_append] at hA ⊢
  intro m hm
  cases List.mem_append.mp hm with
  | inl hm =>
    exact ht k (fun m' hm' => hA m' (List.mem_append_left _ hm')) m hm
  | inr hm =>
    have hk : t.length < k := by
      by_contra hle
      have hzero : k - t.length = 0 := by omega
      rw [hzero] at hm
      cases hm
    have hall : ∀ m ∈ t, A m := by
      intro m' hm'
      apply hA m'
      rw [List.take_of_length_le (by omega)]
      exact List.mem_append_left _ hm'
    exact ht' hall _ (fun m' hm' => hA m' (List.mem_append_right _ hm')) m hm

theorem andThen {f : α → Prog E R W ε β} {h : ε → Prog E R W ε β} {Q : β → W → Prop}
    (hx : RunsIf A I x (fun a => RunsIf A I (f a) Q X) (fun e => RunsIf A I (h e) Q X) w) :
    RunsIf A I (x.andThen f h) Q X w := by
  intro s
  have hxs := hx s
  simp only [Prog.andThen]
  split
  · next t a w' s' heq =>
    rw [heq] at hxs
    obtain ⟨ht, hr⟩ := hxs
    refine ⟨take_append ht (fun hall => (hr hall s').1), fun hs => ?_⟩
    exact (hr (fun m hm => hs m (List.mem_append_left _ hm)) s').2
      (fun m hm => hs m (List.mem_append_right _ hm))
  · next t e w' s' heq =>
    rw [heq] at hxs
    obtain ⟨ht, hr⟩ := hxs
    refine ⟨take_append ht (fun hall => (hr hall s').1), fun hs => ?_⟩
    exact (hr (fun m hm => hs m (List.mem_append_left _ hm)) s').2
      (fun m hm => hs m (List.mem_append_right _ hm))

theorem effect {ev : E} {f : W → W} {Q : Unit → W → Prop} (hI : A ⟨ev, w, f w⟩ → I ⟨ev, w, f w⟩)
    (h : A ⟨ev, w, f w⟩ → Q () (f w)) : RunsIf A I (Prog.effect ev f : Prog E R W ε Unit) Q X w := by
  intro s
  refine ⟨fun k hA m hm => ?_, fun hA => h (hA _ (List.mem_singleton_self _))⟩
  have he : m = ⟨ev, w, f w⟩ := List.mem_singleton.mp (List.mem_of_mem_take hm)
  subst he
  exact hI (hA _ hm)

theorem ret {a : α} (h : Q a w) : RunsIf A I (Prog.ret a : Prog E R W ε α) Q X w := of_runs (Runs.ret h)

theorem raise {e : ε} (h : X e w) : RunsIf A I (Prog.raise e : Prog E R W ε α) Q X w :=
  of_runs (Runs.raise h)

theorem bind {f : α → Prog E R W ε β} {Q : β → W → Prop}
    (hx : RunsIf A I x (fun a => RunsIf A I (f a) Q X) X w) : RunsIf A I (x >>= f) Q X w :=
  andThen (hx.mono (fun _ _ h => h) (fun _ _ h => raise h))

theorem andFinally {y : Prog E R W ε Unit}
    (hx : RunsIf A I x (fun a => RunsIf A I y (fun _ => Q a) X)
      (fun e => RunsIf A I y (fun _ => X e) X) w) : RunsIf A I (x.andFinally y) Q X w :=
  andThen (hx.mono (fun _ _ h => andThen (h.mono (fun _ _ h => ret h) (fun _ _ h => raise h)))
    (fun _ _ h => andThen (h.mono (fun _ _ h => raise h) (fun _ _ h => raise h))))

end RunsIf

/-- Run from `w` on allowed replies, `x` passes through a moment in `p`. -/
def Visits (ok : R → Prop) (p : Moment E W → Prop) (x : Prog E R W ε α) (w : W) : Prop :=
  ∀ s, (∀ n, ok (s n)) → ∃ m ∈ (x s w).trace, p m

namespace Visits
variable {ok : R → Prop} {I p : Moment E W → Prop} {x : Prog E R W ε α} {w : W}

theorem effect {ev : E} {f : W → W} (h : p ⟨ev, w, f w⟩) :
    Visits ok p (Prog.effect ev f : Prog E R W ε Unit) w :=
  fun _ _ => ⟨_, List.mem_singleton_self _, h⟩

theorem mono {p' : Moment E W → Prop} (hx : Visits ok p x w) (hp : ∀ m, p m → p' m) : Visits ok p' x w := by
  intro s hs
  obtain ⟨m, hm, h⟩ := hx s hs
  exact ⟨m, hm, hp m h⟩

/-- The first part passes through the moment. -/
theorem first {f : α → Prog E R W ε β} {h : ε → Prog E R W ε β} (hx : Visits ok p x w) :
    Visits ok p (x.andThen f h) w := by
  intro s hs
  obtain ⟨m, hm, hp⟩ := hx s hs
  refine ⟨m, ?_, hp⟩
  simp only [Prog.andThen]
  split
  · next heq => rw [heq] at hm; exact List.mem_append_left _ hm
  · next heq => rw [heq] at hm; exact List.mem_append_left _ hm

/-- The second part does, whatever the first one came to. -/
theorem second {f : α → Prog E R W ε β} {h : ε → Prog E R W ε β}
    (hx : Runs ok I x (fun a => Visits ok p (f a)) (fun e => Visits ok p (h e)) w) :
    Visits ok p (x.andThen f h) w := by
  intro s hs
  have hxs := hx s hs
  simp only [Prog.andThen]
  split
  · next heq =>
    rw [heq] at hxs
    obtain ⟨m, hm, hp⟩ := hxs.2.1 _ hxs.2.2
    exact ⟨m, List.mem_append_right _ hm, hp⟩
  · next heq =>
    rw [heq] at hxs
    obtain ⟨m, hm, hp⟩ := hxs.2.1 _ hxs.2.2
    exact ⟨m, List.mem_append_right _ hm, hp⟩

theorem bind_first {f : α → Prog E R W ε β} (hx : Visits ok p x w) : Visits ok p (x >>= f) w := first hx

/-- The second part of a sequence does, where the first one does not throw. -/
theorem bind_second {f : α → Prog E R W ε β}
    (hx : Runs ok I x (fun a => Visits ok p (f a)) (fun _ _ => False) w) : Visits ok p (x >>= f) w :=
  second (hx.mono (fun _ _ h => h) (fun _ _ h => h.elim))

theorem attemptIf {c : Bool} {x : Prog E R W ε Unit} (hc : c = true) (hx : Visits ok p x w) :
    Visits ok p (attemptIf c x) w := by
  rw [Prog.attemptIf, if_pos hc]
  exact first hx

end Visits

/-- `x` keeps `P` however it ends, and passes only through moments in `I`. -/
def Keeps (ok : R → Prop) (I : Moment E W → Prop) (P : W → Prop) (x : Prog E R W ε α) : Prop :=
  ∀ w, P w → Runs ok I x (fun _ => P) (fun _ => P) w

end Effects
