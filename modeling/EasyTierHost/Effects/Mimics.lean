import EasyTierHost.Effects.Prog

/- Forward simulation of programs. One program runs from a world under a script; another,
   about other worlds and asked for other replies, mimics it where it has replies of its
   own that bring it to the same outcome in a related world, and goes on with whatever
   comes after them. So programs that mimic each other can be put together part by part. -/
namespace Effects

variable {E R W E' R' W' ε α β : Type}

/-- The replies of a list, then those of a script. -/
def feed : List R → (Nat → R) → Nat → R
  | [], rest, n => rest n
  | r :: _, _, 0 => r
  | _ :: rs, rest, n + 1 => feed rs rest n

theorem feed_append : ∀ (l l' : List R) (rest : Nat → R), feed (l ++ l') rest = feed l (feed l' rest)
  | [], _, _ => rfl
  | r :: l, l', rest => by
    funext n
    cases n with
    | zero => rfl
    | succ n => exact congrFun (feed_append l l' rest) n

theorem feed_all {ok : R → Prop} : ∀ {l : List R} {rest : Nat → R}, (∀ r ∈ l, ok r) → (∀ n, ok (rest n)) →
    ∀ n, ok (feed l rest n)
  | [], _, _, h, n => h n
  | r :: _, _, hl, _, 0 => hl r List.mem_cons_self
  | r :: _, _, hl, h, n + 1 => feed_all (fun x hx => hl x (List.mem_cons_of_mem r hx)) h n

/-- What `x` does from the world `w` under the script `s`, `y` can do from any related
world, given replies that are `ok`. -/
def Mimics (ok : R' → Prop) (rel : W → W' → Prop) (x : Prog E R W ε α) (y : Prog E' R' W' ε α)
    (s : Nat → R) (w : W) : Prop :=
  ∀ w', rel w w' → ∃ given v', (∀ r ∈ given, ok r) ∧ rel (x s w).world v' ∧
    ∀ rest, ∃ t, y (feed given rest) w' = ⟨t, (x s w).result, v', rest⟩

namespace Mimics
open Prog

variable {ok : R' → Prop} {rel : W → W' → Prop} {x : Prog E R W ε α} {y : Prog E' R' W' ε α}
  {s : Nat → R} {w : W}

/-- What comes after a first part, in either program. -/
theorem after_first {z : Prog E R W ε β} {z' : Prog E' R' W' ε β} {both : Prog E R W ε β} {both' : Prog E' R' W' ε β}
    {t : List (Moment E W)} {v : W} {rest' : Nat → R} {w' v₁ : W'} {l₁ : List R'} (hl₁ : ∀ r ∈ l₁, ok r)
    (hv₁ : rel v v₁) (hz : Mimics ok rel z z' rest' v) (hboth : both s w = (z rest' v).after t)
    (hboth' : ∀ rest, ∃ t', both' (feed l₁ rest) w' = (z' rest v₁).after t') :
    ∃ given v', (∀ r ∈ given, ok r) ∧ rel (both s w).world v' ∧
      ∀ rest, ∃ t, both' (feed given rest) w' = ⟨t, (both s w).result, v', rest⟩ := by
  obtain ⟨l₂, v₂, hl₂, hv₂, hrun₂⟩ := hz v₁ hv₁
  refine ⟨l₁ ++ l₂, v₂, ?_, ?_, fun rest => ?_⟩
  · intro r hr
    exact (List.mem_append.mp hr).elim (hl₁ r) (hl₂ r)
  · rw [hboth]
    exact hv₂
  · obtain ⟨t₁, ht₁⟩ := hboth' (feed l₂ rest)
    obtain ⟨t₂, ht₂⟩ := hrun₂ rest
    refine ⟨t₁ ++ t₂, ?_⟩
    rw [feed_append, ht₁, ht₂, hboth]
    rfl

/-- Part by part. -/
theorem andThen {f : α → Prog E R W ε β} {h : ε → Prog E R W ε β} {g : α → Prog E' R' W' ε β}
    {k : ε → Prog E' R' W' ε β} (hx : Mimics ok rel x y s w)
    (hok : ∀ a, (x s w).result = .ok a → Mimics ok rel (f a) (g a) (x s w).rest (x s w).world)
    (herr : ∀ e, (x s w).result = .error e → Mimics ok rel (h e) (k e) (x s w).rest (x s w).world) :
    Mimics ok rel (x.andThen f h) (y.andThen g k) s w := by
  intro w' hw
  obtain ⟨l₁, v₁, hl₁, hv₁, hrun₁⟩ := hx w' hw
  rcases hxs : x s w with ⟨t, e | a, v, rest'⟩
  · rw [hxs] at hv₁ hrun₁ herr
    refine after_first (t := t) hl₁ hv₁ (herr e rfl) (by rw [Prog.andThen, hxs]) (fun rest => ?_)
    obtain ⟨t₁, ht₁⟩ := hrun₁ rest
    exact ⟨t₁, by rw [Prog.andThen, ht₁]⟩
  · rw [hxs] at hv₁ hrun₁ hok
    refine after_first (t := t) hl₁ hv₁ (hok a rfl) (by rw [Prog.andThen, hxs]) (fun rest => ?_)
    obtain ⟨t₁, ht₁⟩ := hrun₁ rest
    exact ⟨t₁, by rw [Prog.andThen, ht₁]⟩

theorem ret (a : α) : Mimics ok rel (Prog.ret a : Prog E R W ε α) (Prog.ret a : Prog E' R' W' ε α) s w :=
  fun w' hw => ⟨[], w', (fun _ h => by cases h), hw, fun rest => ⟨[], rfl⟩⟩

theorem raise (e : ε) : Mimics ok rel (Prog.raise e : Prog E R W ε α) (Prog.raise e : Prog E' R' W' ε α) s w :=
  fun w' hw => ⟨[], w', (fun _ h => by cases h), hw, fun rest => ⟨[], rfl⟩⟩

theorem bind {f : α → Prog E R W ε β} {g : α → Prog E' R' W' ε β} (hx : Mimics ok rel x y s w)
    (hok : ∀ a, (x s w).result = .ok a → Mimics ok rel (f a) (g a) (x s w).rest (x s w).world) :
    Mimics ok rel (x >>= f) (y >>= g) s w :=
  andThen hx hok (fun e _ => raise e)

/-- Both look at their own world. -/
theorem get {f : W → Prog E R W ε α} {g : W' → Prog E' R' W' ε α}
    (h : ∀ w', rel w w' → Mimics ok rel (f w) (g w') s w) :
    Mimics ok rel (MonadState.get >>= f) (MonadState.get >>= g) s w := by
  intro w' hw
  obtain ⟨l, v', hl, hv, hrun⟩ := h w' hw w' hw
  refine ⟨l, v', hl, hv, fun rest => ?_⟩
  obtain ⟨t, ht⟩ := hrun rest
  refine ⟨t, ?_⟩
  show Ran.after [] (g w' (feed l rest) w') = _
  rw [ht]
  rfl

/-- Both change their own world, without asking. -/
theorem modify {f : W → W} {g : W' → W'} (h : ∀ w', rel w w' → rel (f w) (g w')) :
    Mimics ok rel (MonadState.modifyGet (fun w => ((), f w)) : Prog E R W ε Unit)
      (MonadState.modifyGet (fun w => ((), g w)) : Prog E' R' W' ε Unit) s w :=
  fun w' hw => ⟨[], g w', (fun _ hr => by cases hr), h w' hw, fun rest => ⟨[], rfl⟩⟩

/-- A change the other program has no part in. -/
theorem aside {g : W' → W'} (hg : ∀ w', rel w w' → rel w (g w')) (hx : Mimics ok rel x y s w) :
    Mimics ok rel x ((MonadState.modifyGet (fun w => ((), g w)) : Prog E' R' W' ε Unit) >>= fun _ => y) s w := by
  intro w' hw
  obtain ⟨l, v', hl, hv, hrun⟩ := hx (g w') (hg w' hw)
  refine ⟨l, v', hl, hv, fun rest => ?_⟩
  obtain ⟨t, ht⟩ := hrun rest
  refine ⟨t, ?_⟩
  show Ran.after [] (y (feed l rest) (g w')) = _
  rw [ht]
  rfl

theorem effect {event : E} {event' : E'} {f : W → W} {g : W' → W'} (h : ∀ w', rel w w' → rel (f w) (g w')) :
    Mimics ok rel (Prog.effect event f : Prog E R W ε Unit) (Prog.effect event' g) s w :=
  fun w' hw => ⟨[], g w', (fun _ hr => by cases hr), h w' hw, fun rest => ⟨_, rfl⟩⟩

theorem attemptIf {c : Bool} {x : Prog E R W ε Unit} {y : Prog E' R' W' ε Unit}
    (h : c = true → Mimics ok rel x y s w) : Mimics ok rel (Prog.attemptIf c x) (Prog.attemptIf c y) s w := by
  cases c with
  | true => exact andThen (h rfl) (fun _ _ => ret []) (fun e _ => ret [e])
  | false => exact ret []

end Mimics

end Effects
