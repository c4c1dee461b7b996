import Mathlib.Data.List.Nodup

/- A gate takes one input after another and lets a key through or not. What a whole run
   lets through is without repetition when a key that went through is barred, and stays
   barred as long as the steps of the run keep to a condition. -/
namespace Effects

variable {S E K : Type}

/-- The state after a run. -/
def reached (step : S → E → Option K × S) : S → List E → S
  | s, [] => s
  | s, e :: es => reached step (step s e).2 es

/-- The keys a run lets through, in order. -/
def passed (step : S → E → Option K × S) : S → List E → List K
  | _, [] => []
  | s, e :: es => (step s e).1.toList ++ passed step (step s e).2 es

/-- The condition holds at every step of the run. -/
def Along (ok : S → E → Prop) (step : S → E → Option K × S) : S → List E → Prop
  | _, [] => True
  | s, e :: es => ok s e ∧ Along ok step (step s e).2 es

def Along.decide (ok : S → E → Prop) [∀ s e, Decidable (ok s e)] (step : S → E → Option K × S) :
    ∀ (s : S) (es : List E), Decidable (Along ok step s es)
  | _, [] => .isTrue trivial
  | s, e :: es => haveI := Along.decide ok step (step s e).2 es; inferInstanceAs (Decidable (ok s e ∧ _))

instance (ok : S → E → Prop) [∀ s e, Decidable (ok s e)] (step : S → E → Option K × S) (s : S) (es : List E) :
    Decidable (Along ok step s es) := Along.decide ok step s es

/-- What every step keeps, a run keeps. -/
theorem Along.keeps {inv : S → Prop} {ok : S → E → Prop} {step : S → E → Option K × S}
    (hstep : ∀ s e, inv s → ok s e → inv (step s e).2) : ∀ (es : List E) (s : S), inv s → Along ok step s es →
    inv (reached step s es)
  | [], _, hs, _ => hs
  | e :: es, s, hs, hok => Along.keeps hstep es _ (hstep s e hs hok.1) hok.2

/-- What is known of every key a step lets through, and of the input that it goes through on, is known of the keys of a run. -/
theorem Along.passes {inv : S → Prop} {ok : S → E → Prop} {step : S → E → Option K × S} {P : E → K → Prop}
    (hstep : ∀ s e, inv s → ok s e → inv (step s e).2 ∧ ∀ k, (step s e).1 = some k → P e k) : ∀ (es : List E) (s : S), inv s →
    Along ok step s es → ∀ k ∈ passed step s es, ∃ e ∈ es, P e k
  | [], _, _, _, k, hk => absurd hk List.not_mem_nil
  | e :: es, s, hs, hok, k, hk => by
    obtain ⟨hs', hP⟩ := hstep s e hs hok.1
    rw [passed, List.mem_append, Option.mem_toList] at hk
    rcases hk with hnow | hlater
    · exact ⟨e, List.mem_cons_self, hP k hnow⟩
    · obtain ⟨e', he', hk'⟩ := Along.passes hstep es _ hs' hok.2 k hlater
      exact ⟨e', List.mem_cons_of_mem e he', hk'⟩

/-- In the states of an invariant the keys in `barred` do not go through, and those that did
are barred, as long as the steps are `ok`. -/
structure Bars (inv : S → Prop) (ok : S → E → Prop) (step : S → E → Option K × S) (barred : S → K → Prop) : Prop where
  inv_step : ∀ s e, inv s → ok s e → inv (step s e).2
  passes : ∀ s e k, inv s → ok s e → (step s e).1 = some k → ¬ barred s k ∧ barred (step s e).2 k
  keeps : ∀ s e k, inv s → ok s e → barred s k → barred (step s e).2 k

variable {inv : S → Prop} {ok : S → E → Prop} {step : S → E → Option K × S} {barred : S → K → Prop}

namespace Bars

theorem not_passed (b : Bars inv ok step barred) : ∀ (es : List E) (s : S) (k : K), inv s → Along ok step s es →
    barred s k → k ∉ passed step s es
  | [], _, _, _, _, _ => List.not_mem_nil
  | e :: es, s, k, hinv, hok, hk => by
    rw [passed, List.mem_append, Option.mem_toList]
    rintro (hnow | hlater)
    · exact (b.passes s e k hinv hok.1 hnow).1 hk
    · exact b.not_passed es _ k (b.inv_step s e hinv hok.1) hok.2 (b.keeps s e k hinv hok.1 hk) hlater

theorem nodup (b : Bars inv ok step barred) : ∀ (es : List E) (s : S), inv s → Along ok step s es →
    (passed step s es).Nodup
  | [], _, _, _ => List.nodup_nil
  | e :: es, s, hinv, hok => by
    have hinv' := b.inv_step s e hinv hok.1
    rw [passed]
    cases h : (step s e).1 with
    | none => exact b.nodup es _ hinv' hok.2
    | some k =>
      rw [Option.toList_some, List.singleton_append, List.nodup_cons]
      exact ⟨b.not_passed es _ k hinv' hok.2 (b.passes s e k hinv hok.1 h).2, b.nodup es _ hinv' hok.2⟩

/-- What holds of every key a step lets through, holds of all the keys of a run. -/
theorem forall_passed (b : Bars inv ok step barred) {P : K → Prop}
    (hP : ∀ s e k, inv s → ok s e → (step s e).1 = some k → P k) : ∀ (es : List E) (s : S), inv s → Along ok step s es →
    ∀ k ∈ passed step s es, P k
  | [], _, _, _, k, hk => absurd hk List.not_mem_nil
  | e :: es, s, hs, hok, k, hk => by
    rw [passed, List.mem_append, Option.mem_toList] at hk
    rcases hk with hnow | hlater
    · exact hP s e k hs hok.1 hnow
    · exact b.forall_passed hP es _ (b.inv_step s e hs hok.1) hok.2 k hlater

/-- Every key that goes through is in a log that only grows. -/
theorem logged (b : Bars inv ok step barred) (log : S → K → Prop) (hgrows : ∀ s e k, log s k → log (step s e).2 k)
    (hlog : ∀ s e k, inv s → ok s e → (step s e).1 = some k → log (step s e).2 k) : ∀ (es : List E) (s : S), inv s →
    Along ok step s es → ∀ k, log s k ∨ k ∈ passed step s es → log (reached step s es) k
  | [], _, _, _, k, hk => hk.resolve_right List.not_mem_nil
  | e :: es, s, hs, hok, k, hk => by
    refine b.logged log hgrows hlog es _ (b.inv_step s e hs hok.1) hok.2 k ?_
    rcases hk with hold | hpassed
    · exact .inl (hgrows s e k hold)
    · rw [passed, List.mem_append, Option.mem_toList] at hpassed
      exact hpassed.imp (hlog s e k hs hok.1) id

end Bars

end Effects
