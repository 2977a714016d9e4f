/- Triples for programs that nothing else runs meanwhile: what holds when a program has
returned, and what holds when it has raised. -/
import Uta.Lib.Interleave

namespace Uta.Lib.Prog

variable {S : Type} {A : S → Type} {ε α β σ : Type} {exec : (s : S) → σ → A s × σ}

/-- From a store with `P`, the program returns with `Q`, or raises with `E`. -/
def Triple (exec : (s : S) → σ → A s × σ) (P : σ → Prop) (p : Prog S A ε α) (Q : α → σ → Prop)
    (E : σ → Prop) : Prop :=
  ∀ st, P st → match p.outcome exec st with
    | (.ok a, st') => Q a st'
    | (.error _, st') => E st'

namespace Triple
variable {P : σ → Prop} {p : Prog S A ε α} {Q : α → σ → Prop} {E : σ → Prop}

theorem ret {a : α} (holds : ∀ st, P st → Q a st) : Triple exec P (.ret a : Prog S A ε α) Q E := holds

theorem raise {e : ε} (holds : ∀ st, P st → E st) : Triple exec P (.raise e : Prog S A ε α) Q E := holds

/-- The rule for one statement, and what follows it. -/
theorem stmt {s : S} {next : A s → Prog S A ε α} {R : A s → σ → Prop}
    (step : ∀ st, P st → R (exec s st).1 (exec s st).2) (rest : ∀ a, Triple exec (R a) (next a) Q E) :
    Triple exec P (.stmt s next) Q E :=
  fun st before => rest _ _ (step st before)

theorem perform {s : S} {Q : A s → σ → Prop} (step : ∀ st, P st → Q (exec s st).1 (exec s st).2) :
    Triple exec P (.perform s : Prog S A ε (A s)) Q E :=
  stmt step fun _ => ret fun _ => id

theorem bind {f : α → Prog S A ε β} {R : β → σ → Prop} (first : Triple exec P p Q E)
    (rest : ∀ a, Triple exec (Q a) (f a) R E) : Triple exec P (p >>= f) R E := by
  intro st before
  have halfway := first st before
  rw [outcome_bind]
  rcases ended : p.outcome exec st with ⟨_ | a, st'⟩ <;> rw [ended] at halfway
  · exact halfway
  · exact rest a st' halfway

theorem mono {P' : σ → Prop} {Q' : α → σ → Prop} {E' : σ → Prop} (triple : Triple exec P p Q E)
    (before : ∀ st, P' st → P st) (returned : ∀ a st, Q a st → Q' a st) (raised : ∀ st, E st → E' st) :
    Triple exec P' p Q' E' := by
  intro st start
  have ends := triple st (before st start)
  rcases ended : p.outcome exec st with ⟨_ | a, st'⟩ <;> rw [ended] at ends
  · exact raised st' ends
  · exact returned a st' ends

theorem of_pre {P' : σ → Prop} (triple : Triple exec P p Q E) (before : ∀ st, P' st → P st) :
    Triple exec P' p Q E :=
  triple.mono before (fun _ _ => id) fun _ => id

/-- What is raised is caught, and the store stays as it is. -/
theorem attempt {R : Except ε α → σ → Prop} (triple : Triple exec P p (fun a => R (.ok a)) E)
    (caught : ∀ e st, E st → R (.error e) st) : Triple exec P p.attempt R E := by
  intro st before
  have ends := triple st before
  rw [outcome_attempt]
  rcases ended : p.outcome exec st with ⟨e | a, st'⟩ <;> rw [ended] at ends
  · exact caught e st' ends
  · exact ends

/-- What every statement of the program keeps holds when it has ended. -/
theorem invariant {C : S → Prop} {I : σ → Prop} (only : p.Only C)
    (each : ∀ s, C s → ∀ st, I st → I (exec s st).2) : Triple exec I p (fun _ => I) I := by
  intro st before
  have kept : I (p.outcome exec st).2 :=
    outcome_relates exec (R := fun a b => I a → I b) (fun _ => id) (fun _ _ _ first second => second ∘ first)
      each only st before
  rcases ended : p.outcome exec st with ⟨_ | a, st'⟩ <;> rw [ended] at kept <;> exact kept

end Triple
end Uta.Lib.Prog
