/- Runs of a step function over a list of inputs: invariants, growth, and the
steps that keep a property. -/
import Mathlib.Data.List.Basic
import Mathlib.Tactic.Common

namespace Uta.Lib

variable {σ ι : Type} (step : σ → ι → σ)

def run (s : σ) (inputs : List ι) : σ := inputs.foldl step s

@[simp] theorem run_nil (s : σ) : run step s [] = s := rfl

@[simp] theorem run_cons (s : σ) (i : ι) (is : List ι) :
    run step s (i :: is) = run step (step s i) is := rfl

theorem run_append (s : σ) (is js : List ι) :
    run step s (is ++ js) = run step (run step s is) js := by
  unfold run
  rw [List.foldl_append]

/-- What every step preserves, every run preserves. -/
theorem run_invariant {P : σ → Prop} (preserved : ∀ s i, P s → P (step s i)) (s : σ)
    (is : List ι) (start : P s) : P (run step s is) := by
  induction is generalizing s with
  | nil => exact start
  | cons i is ih => exact ih (step s i) (preserved s i start)

/-- What relates every state to the next one relates it to every later one. -/
theorem run_grows {R : σ → σ → Prop} (refl : ∀ s, R s s) (trans : ∀ s t u, R s t → R t u → R s u)
    (grows : ∀ s i, R s (step s i)) (s : σ) (is : List ι) : R s (run step s is) := by
  induction is generalizing s with
  | nil => exact refl s
  | cons i is ih => exact trans s (step s i) _ (grows s i) (ih (step s i))

/-- Every step of the run starts in a state, and on an input, that `C` allows. -/
def Meets (C : σ → ι → Prop) : σ → List ι → Prop
  | _, [] => True
  | s, i :: is => C s i ∧ Meets C (step s i) is

instance decidableMeets (C : σ → ι → Prop) [∀ s i, Decidable (C s i)] :
    ∀ s is, Decidable (Meets step C s is)
  | _, [] => inferInstanceAs (Decidable True)
  | s, i :: is =>
    have := decidableMeets C (step s i) is
    inferInstanceAs (Decidable (C s i ∧ Meets step C (step s i) is))

/-- `P` holds in every state of the run, the first and the last included. -/
def Always (P : σ → Prop) : σ → List ι → Prop
  | s, [] => P s
  | s, i :: is => P s ∧ Always P (step s i) is

instance decidableAlways (P : σ → Prop) [DecidablePred P] : ∀ s is, Decidable (Always step P s is)
  | s, [] => inferInstanceAs (Decidable (P s))
  | s, i :: is =>
    have := decidableAlways P (step s i) is
    inferInstanceAs (Decidable (P s ∧ Always step P (step s i) is))

theorem Always.start {P : σ → Prop} {s : σ} {is : List ι} (h : Always step P s is) : P s := by
  cases is with
  | nil => exact h
  | cons i is => exact h.1

theorem always_mono {P Q : σ → Prop} (weaker : ∀ s, P s → Q s) (s : σ) (is : List ι)
    (always : Always step P s is) : Always step Q s is := by
  induction is generalizing s with
  | nil => exact weaker s always
  | cons i is ih => exact ⟨weaker s always.1, ih (step s i) always.2⟩

theorem always_iff_reached {P : σ → Prop} (s : σ) (is : List ι) :
    Always step P s is ↔ ∀ done rest, is = done ++ rest → P (run step s done) := by
  induction is generalizing s with
  | nil =>
      constructor
      · intro h done rest split
        rw [(List.append_eq_nil_iff.mp split.symm).1]
        exact h
      · intro h
        exact h [] [] rfl
  | cons i is ih =>
      constructor
      · intro h done rest split
        cases done with
        | nil => exact h.1
        | cons j done =>
            rw [List.cons_append, List.cons.injEq] at split
            obtain ⟨rfl, split⟩ := split
            exact (ih (step s i)).mp h.2 done rest split
      · intro h
        refine ⟨h [] (i :: is) rfl, (ih (step s i)).mpr ?_⟩
        intro done rest split
        exact h (i :: done) rest (by rw [split]; rfl)

/-- Where a step keeps `P` exactly when it is allowed, a run keeps `P` exactly
when all its steps are; `I` holds all along. -/
theorem always_iff_meets_of {I P : σ → Prop} {C : σ → ι → Prop} (kept : ∀ s i, I s → I (step s i))
    (exact_step : ∀ s i, I s → P s → (P (step s i) ↔ C s i)) (s : σ) (is : List ι) (inv : I s)
    (start : P s) : Always step P s is ↔ Meets step C s is := by
  induction is generalizing s with
  | nil => exact ⟨fun _ => trivial, fun _ => start⟩
  | cons i is ih =>
      constructor
      · intro h
        have next : P (step s i) := h.2.start
        exact ⟨(exact_step s i inv start).mp next, (ih (step s i) (kept s i inv) next).mp h.2⟩
      · intro h
        have next : P (step s i) := (exact_step s i inv start).mpr h.1
        exact ⟨start, (ih (step s i) (kept s i inv) next).mpr h.2⟩

theorem always_iff_meets {P : σ → Prop} {C : σ → ι → Prop}
    (exact_step : ∀ s i, P s → (P (step s i) ↔ C s i)) (s : σ) (is : List ι) (start : P s) :
    Always step P s is ↔ Meets step C s is :=
  always_iff_meets_of step (I := fun _ => True) (fun _ _ _ => trivial)
    (fun s i _ => exact_step s i) s is trivial start

/-- Allowed steps keep `P` along the run. -/
theorem always_of_meets {P : σ → Prop} {C : σ → ι → Prop}
    (preserved : ∀ s i, P s → C s i → P (step s i)) (s : σ) (is : List ι) (start : P s)
    (allowed : Meets step C s is) : Always step P s is := by
  induction is generalizing s with
  | nil => exact start
  | cons i is ih => exact ⟨start, ih (step s i) (preserved s i start allowed.1) allowed.2⟩

theorem meets_mono {C D : σ → ι → Prop} (weaker : ∀ s i, C s i → D s i) (s : σ) (is : List ι)
    (meets : Meets step C s is) : Meets step D s is := by
  induction is generalizing s with
  | nil => exact trivial
  | cons i is ih => exact ⟨weaker s i meets.1, ih (step s i) meets.2⟩

theorem meets_and {C D : σ → ι → Prop} (s : σ) (is : List ι) (first : Meets step C s is)
    (second : Meets step D s is) : Meets step (fun s i => C s i ∧ D s i) s is := by
  induction is generalizing s with
  | nil => exact trivial
  | cons i is ih => exact ⟨⟨first.1, second.1⟩, ih (step s i) first.2 second.2⟩

/-- Two conditions are met by the same runs if they agree wherever `P` holds, and
`P` holds along a run that meets them. -/
theorem meets_iff {P : σ → Prop} {C D : σ → ι → Prop} (agree : ∀ s i, P s → (C s i ↔ D s i))
    (preserved : ∀ s i, P s → C s i → P (step s i)) (s : σ) (is : List ι) (start : P s) :
    Meets step C s is ↔ Meets step D s is := by
  induction is generalizing s with
  | nil => exact Iff.rfl
  | cons i is ih =>
      constructor
      · intro meets
        exact ⟨(agree s i start).mp meets.1, (ih _ (preserved s i start meets.1)).mp meets.2⟩
      · intro meets
        have first := (agree s i start).mpr meets.1
        exact ⟨first, (ih _ (preserved s i start first)).mpr meets.2⟩

/-- A run that meets `C`, along which `P` holds, meets what the two imply. -/
theorem meets_of_invariant {P : σ → Prop} {C D : σ → ι → Prop} (implied : ∀ s i, P s → C s i → D s i)
    (preserved : ∀ s i, P s → C s i → P (step s i)) (s : σ) (is : List ι) (start : P s)
    (meets : Meets step C s is) : Meets step D s is := by
  induction is generalizing s with
  | nil => exact trivial
  | cons i is ih =>
      exact ⟨implied s i start meets.1, ih (step s i) (preserved s i start meets.1) meets.2⟩

theorem meets_append {C : σ → ι → Prop} (s : σ) (is js : List ι) :
    Meets step C s (is ++ js) ↔ Meets step C s is ∧ Meets step C (run step s is) js := by
  induction is generalizing s with
  | nil => exact ⟨fun h => ⟨trivial, h⟩, fun h => h.2⟩
  | cons i is ih => exact (and_congr_right fun _ => ih (step s i)).trans and_assoc.symm

/-- Once `R x` holds it goes on holding, until a step that is free to end it. -/
def StaysUntil {τ : Type} (R : τ → σ → Prop) (Free : τ → σ → ι → Prop) (s : σ) (is : List ι) : Prop :=
  ∀ done mid rest, is = done ++ mid ++ rest → ∀ x, R x (run step s done) →
    Meets step (fun s i => ¬ Free x s i) (run step s done) mid → R x (run step s (done ++ mid))

/-- That is so exactly when no step ends it without being free to. -/
theorem staysUntil_iff {τ : Type} {R : τ → σ → Prop} {Free : τ → σ → ι → Prop} (s : σ) (is : List ι) :
    StaysUntil step R Free s is ↔
      Meets step (fun s i => ∀ x, R x s → ¬ Free x s i → R x (step s i)) s is := by
  constructor
  · intro stays
    induction is generalizing s with
    | nil => exact trivial
    | cons i is ih =>
        constructor
        · intro x before bound
          exact stays [] [i] is rfl x before ⟨bound, trivial⟩
        · apply ih (step s i)
          intro done mid rest split
          exact stays (i :: done) mid rest (by rw [split]; rfl)
  · rintro meets done mid rest rfl x before bound
    have later := ((meets_append step s _ _).mp ((meets_append step s _ _).mp meets).1).2
    rw [run_append]
    clear meets
    generalize run step s done = t at before bound later
    induction mid generalizing t with
    | nil => exact before
    | cons i mid ih => exact ih (step t i) (later.1 x before bound.1) bound.2 later.2

end Uta.Lib
