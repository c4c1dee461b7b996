import Mathlib.Tactic.Common

/- Sequential programs over a world the environment has a say in. A program
   runs from a world and a script, the environment's replies to its calls in
   the order it makes them; it returns or throws, and leaves a trace with one
   moment for every external effect. What stands between two moments touches
   only the program's own memory, so the moments are exactly the states a crash
   can leave behind, and a property of every moment is a property of every
   instant of the run.

   Nothing here is probabilistic or concurrent: quantifying over the script is
   quantifying over every pattern of failures. -/
namespace Effects

/-- One external effect: what was asked for, and the world on either side. -/
structure Moment (E W : Type) where
  event : E
  before : W
  after : W

/-- A finished run: its effects in order, its outcome, the world it ends in and
the replies it did not use. -/
structure Ran (E R W ε α : Type) where
  trace : List (Moment E W)
  result : Except ε α
  world : W
  rest : Nat → R

/-- A program with events `E`, replies `R`, worlds `W` and exceptions `ε`. -/
def Prog (E R W ε α : Type) : Type := (Nat → R) → W → Ran E R W ε α

variable {E R W ε α β : Type}

/-- A run that had the effects `t` before it. -/
def Ran.after (t : List (Moment E W)) (r : Ran E R W ε α) : Ran E R W ε α :=
  { r with trace := t ++ r.trace }

namespace Prog

/-- Continue a run: `f` on a value, `h` on an exception. -/
def andThen (x : Prog E R W ε α) (f : α → Prog E R W ε β) (h : ε → Prog E R W ε β) :
    Prog E R W ε β := fun s w =>
  match x s w with
  | ⟨t, .ok a, w', s'⟩ => (f a s' w').after t
  | ⟨t, .error e, w', s'⟩ => (h e s' w').after t

def ret (a : α) : Prog E R W ε α := fun s w => ⟨[], .ok a, w, s⟩

def raise (e : ε) : Prog E R W ε α := fun s w => ⟨[], .error e, w, s⟩

instance : Monad (Prog E R W ε) where
  pure := ret
  bind x f := x.andThen f raise

instance : MonadExceptOf ε (Prog E R W ε) where
  throw := raise
  tryCatch x h := x.andThen ret h

instance : MonadStateOf W (Prog E R W ε) where
  get := fun s w => ⟨[], .ok w, w, s⟩
  set w' := fun s _ => ⟨[], .ok (), w', s⟩
  modifyGet f := fun s w => ⟨[], .ok (f w).1, (f w).2, s⟩

/-- The environment's next reply. -/
def ask : Prog E R W ε R := fun s w => ⟨[], .ok (s 0), w, fun n => s (n + 1)⟩

/-- An external effect, recorded as a moment. -/
def effect (ev : E) (f : W → W) : Prog E R W ε Unit := fun s w =>
  ⟨[⟨ev, w, f w⟩], .ok (), f w, s⟩

/-- Throw what the environment says to throw. -/
def outcome : Option ε → Prog E R W ε Unit
  | none => ret ()
  | some e => raise e

/-- `if (c) throw e`. -/
def refuse (c : Prop) [Decidable c] (e : ε) : Prog E R W ε Unit :=
  if c then raise e else ret ()

/-- `try x finally y`: `y` runs either way; an exception of `y` replaces `x`'s
outcome. -/
def andFinally (x : Prog E R W ε α) (y : Prog E R W ε Unit) : Prog E R W ε α :=
  x.andThen (fun a => y.andThen (fun _ => ret a) raise) (fun e => y.andThen (fun _ => raise e) raise)

/-- `try x finally y` around a program that says whether it has ended: while it
has not, `y` is not due. -/
def finallyIfEnded (x : Prog E R W ε Bool) (y : Prog E R W ε Unit) : Prog E R W ε Bool :=
  x.andThen (fun ended => if ended then y.andThen (fun _ => ret true) raise else ret false)
    (fun e => y.andThen (fun _ => raise e) raise)

/-- Run a step if `c`, catch what it throws and report it. -/
def attemptIf (c : Bool) (x : Prog E R W ε Unit) : Prog E R W ε (List ε) :=
  if c then x.andThen (fun _ => ret []) (fun e => ret [e]) else ret []

/-- Run `f` on every element in turn, whatever the earlier ones threw, and
collect the exceptions with the elements that threw them. -/
def collect (f : β → Prog E R W ε Unit) : List β → Prog E R W ε (List (β × ε))
  | [] => ret []
  | b :: bs => (f b).andThen (fun _ => collect f bs)
      (fun e => (collect f bs).andThen (fun es => ret ((b, e) :: es)) raise)

/-- Run `f` on every element in turn, up to the first exception. -/
def each (f : β → Prog E R W ε Unit) : List β → Prog E R W ε Unit
  | [] => ret ()
  | b :: bs => (f b).andThen (fun _ => each f bs) raise

/-- Run a program about a part of the world. -/
def zoom {E' W' : Type} (part : W' → W) (put : W → W' → W') (ev : E → E') (x : Prog E R W ε α) :
    Prog E' R W' ε α := fun s w =>
  let r := x s (part w)
  ⟨r.trace.map (fun m => ⟨ev m.event, put m.before w, put m.after w⟩), r.result, put r.world w, r.rest⟩

/-! ## Splitting a run -/

theorem andThen_assoc {γ : Type} (x : Prog E R W ε α) (f : α → Prog E R W ε β) (h : ε → Prog E R W ε β)
    (g : β → Prog E R W ε γ) (k : ε → Prog E R W ε γ) :
    (x.andThen f h).andThen g k = x.andThen (fun a => (f a).andThen g k) (fun e => (h e).andThen g k) := by
  funext s w
  simp only [andThen]
  rcases x s w with ⟨t, a | a, w', s'⟩
  · rcases hh : h a s' w' with ⟨t', b | b, w'', s''⟩ <;> simp [Ran.after, hh]
  · rcases hf : f a s' w' with ⟨t', b | b, w'', s''⟩ <;> simp [Ran.after, hf]

/-- The first parts of a sequence are a program of their own. -/
theorem bind_bind {γ : Type} (x : Prog E R W ε α) (f : α → Prog E R W ε β) (g : β → Prog E R W ε γ) :
    (x >>= f) >>= g = x >>= fun a => f a >>= g := by
  show (x.andThen f raise).andThen g raise = x.andThen (fun a => (f a).andThen g raise) raise
  rw [andThen_assoc]
  congr 1

@[simp] theorem ret_andThen (a : α) (f : α → Prog E R W ε β) (h : ε → Prog E R W ε β) :
    (ret a).andThen f h = f a := by
  funext s w
  simp [andThen, ret, Ran.after]

@[simp] theorem raise_andThen (e : ε) (f : α → Prog E R W ε β) (h : ε → Prog E R W ε β) :
    (raise e).andThen f h = h e := by
  funext s w
  simp [andThen, raise, Ran.after]

theorem ite_andThen {c : Prop} [Decidable c] (x y : Prog E R W ε α) (f : α → Prog E R W ε β)
    (h : ε → Prog E R W ε β) :
    (if c then x else y).andThen f h = if c then x.andThen f h else y.andThen f h := by
  split
  · rfl
  · rfl

theorem andThen_ret_raise (x : Prog E R W ε α) : x.andThen ret raise = x := by
  funext s w
  simp only [andThen]
  rcases x s w with ⟨t, a | a, w', s'⟩
  · simp [raise, Ran.after]
  · simp [ret, Ran.after]

/-- Where the first part returns, the trace of a sequence is the two traces in order. -/
theorem trace_andThen {x : Prog E R W ε α} {f : α → Prog E R W ε β} {h : ε → Prog E R W ε β}
    {s : Nat → R} {w : W} {a : α} (ha : (x s w).result = .ok a) :
    (x.andThen f h s w).trace = (x s w).trace ++ (f a (x s w).rest (x s w).world).trace := by
  simp only [andThen]
  rcases hx : x s w with ⟨t, b | b, w', s'⟩
  · rw [hx] at ha; simp at ha
  · rw [hx] at ha
    simp only [Except.ok.injEq] at ha
    simp [Ran.after, ha]

/-- The trace of a sequence, whichever part it ends in. -/
theorem trace_bind (x : Prog E R W ε α) (f : α → Prog E R W ε β) (s : Nat → R) (w : W) :
    ((x >>= f) s w).trace = (x s w).trace ++ (match (x s w).result with
      | .ok a => (f a (x s w).rest (x s w).world).trace
      | .error _ => []) := by
  change (x.andThen f raise s w).trace = _
  simp only [andThen]
  rcases x s w with ⟨t, e | a, w', s'⟩
  · rfl
  · rfl

/-- The effects of either part are effects of the sequence. -/
theorem mem_trace_first {x : Prog E R W ε α} (f : α → Prog E R W ε β) {s : Nat → R} {w : W}
    {m : Moment E W} (hm : m ∈ (x s w).trace) : m ∈ ((x >>= f) s w).trace := by
  rw [trace_bind]
  exact List.mem_append_left _ hm

theorem mem_trace_second {x : Prog E R W ε α} {f : α → Prog E R W ε β} {s : Nat → R} {w : W} {a : α}
    (ha : (x s w).result = .ok a) {m : Moment E W}
    (hm : m ∈ (f a (x s w).rest (x s w).world).trace) : m ∈ ((x >>= f) s w).trace := by
  rw [trace_bind, ha]
  exact List.mem_append_right _ hm

/-- The world and the outcome of a sequence whose first part returns, -/
theorem bind_returned {x : Prog E R W ε α} (f : α → Prog E R W ε β) {s : Nat → R} {w : W} {a : α}
    (ha : (x s w).result = .ok a) :
    ((x >>= f) s w).world = (f a (x s w).rest (x s w).world).world ∧
      ((x >>= f) s w).result = (f a (x s w).rest (x s w).world).result ∧
      ((x >>= f) s w).rest = (f a (x s w).rest (x s w).world).rest := by
  change (x.andThen f raise s w).world = _ ∧ (x.andThen f raise s w).result = _ ∧
    (x.andThen f raise s w).rest = _
  simp only [andThen]
  rcases hx : x s w with ⟨t, b | b, w', s'⟩
  · rw [hx] at ha
    cases ha
  · rw [hx] at ha
    cases ha
    exact ⟨rfl, rfl, rfl⟩

/-- and of one whose first part throws. -/
theorem bind_threw {x : Prog E R W ε α} (f : α → Prog E R W ε β) {s : Nat → R} {w : W} {e : ε}
    (he : (x s w).result = .error e) :
    ((x >>= f) s w).world = (x s w).world ∧ ((x >>= f) s w).result = .error e := by
  change (x.andThen f raise s w).world = _ ∧ (x.andThen f raise s w).result = _
  simp only [andThen]
  rcases hx : x s w with ⟨t, b | b, w', s'⟩
  · rw [hx] at he
    cases he
    exact ⟨rfl, rfl⟩
  · rw [hx] at he
    cases he

/-- A finally block runs where the try block ends. -/
theorem andFinally_world (x : Prog E R W ε α) (y : Prog E R W ε Unit) (s : Nat → R) (w : W) :
    (x.andFinally y s w).world = (y (x s w).rest (x s w).world).world ∧
      (x.andFinally y s w).trace = (x s w).trace ++ (y (x s w).rest (x s w).world).trace := by
  simp only [andFinally, andThen]
  rcases x s w with ⟨t, e | a, w', s'⟩
  · rcases hy : y s' w' with ⟨t', e' | b, w'', s''⟩ <;> simp [hy, Ran.after, raise]
  · rcases hy : y s' w' with ⟨t', e' | b, w'', s''⟩ <;> simp [hy, Ran.after, raise, ret]

/-- Collecting over two lists is collecting over the first, then over the second. -/
theorem collect_append (f : β → Prog E R W ε Unit) (l₁ l₂ : List β) :
    collect f (l₁ ++ l₂) = (collect f l₁).andThen
      (fun es => (collect f l₂).andThen (fun es' => ret (es ++ es')) raise) raise := by
  induction l₁ with
  | nil => simp [collect, andThen_ret_raise]
  | cons b l₁ ih =>
    simp only [List.cons_append, collect, ih, andThen_assoc, raise_andThen, ret_andThen]

/-- The effects of the first step come first. -/
theorem trace_collect_cons (f : β → Prog E R W ε Unit) (b : β) (l : List β) (s : Nat → R) (w : W) :
    (collect f (b :: l) s w).trace = (f b s w).trace ++ (collect f l (f b s w).rest (f b s w).world).trace := by
  simp only [collect, andThen]
  rcases f b s w with ⟨t, e | _, w', s'⟩
  · show t ++ _ = t ++ _
    rcases collect f l s' w' with ⟨t', e' | es, w'', s''⟩
    · simp [raise, Ran.after]
    · simp [ret, Ran.after]
  · rfl

/-- Collecting does not throw. -/
theorem collect_returns (f : β → Prog E R W ε Unit) :
    ∀ (l : List β) (s : Nat → R) (w : W), ∃ es, (collect f l s w).result = .ok es
  | [], _, _ => ⟨[], rfl⟩
  | b :: l, s, w => by
    simp only [collect, andThen]
    rcases f b s w with ⟨t, e | _, w', s'⟩
    · obtain ⟨es, hes⟩ := collect_returns f l s' w'
      refine ⟨(b, e) :: es, ?_⟩
      rcases hc : collect f l s' w' with ⟨t', r, w'', s''⟩
      rw [hc] at hes
      simp only at hes
      subst hes
      simp [Ran.after, ret, hc]
    · exact collect_returns f l s' w'

end Prog

end Effects
