/- State with exceptions. A raise keeps every write made before it; `transaction`
is the bracket that takes them back. -/
import Mathlib.Tactic.Common

namespace Uta.Lib

/-- A computation over a store `σ`. The store comes back on a raise as well, so
that what a failed computation leaves behind can be talked about. -/
def Act (σ ε α : Type) : Type := σ → Except ε α × σ

/-- A sequence of partial results is one exactly when both parts are. -/
theorem except_bind_ok {ε α β : Type} {x : Except ε α} {f : α → Except ε β} {b : β} :
    (x >>= f) = .ok b ↔ ∃ a, x = .ok a ∧ f a = .ok b := by
  cases x with
  | error e => exact ⟨fun h => (nomatch h), fun ⟨_, h, _⟩ => (nomatch h)⟩
  | ok a => exact ⟨fun h => ⟨a, rfl, h⟩, fun ⟨_, h, hf⟩ => Except.ok.inj h ▸ hf⟩

theorem except_forM_ok {ε α : Type} {f : α → Except ε Unit} {l : List α} :
    l.forM f = .ok () ↔ ∀ x ∈ l, f x = .ok () := by
  induction l with
  | nil => exact ⟨fun _ _ member => (nomatch member), fun _ => rfl⟩
  | cons x xs ih =>
      have unfolded : (x :: xs).forM f = f x >>= fun _ => xs.forM f := rfl
      rw [unfolded, except_bind_ok, List.forall_mem_cons, ← ih]
      exact ⟨fun ⟨_, head, tail⟩ => ⟨head, tail⟩, fun ⟨head, tail⟩ => ⟨(), head, tail⟩⟩

namespace Act
variable {σ ε α β : Type}

instance : Monad (Act σ ε) where
  pure a := fun s => (.ok a, s)
  bind x f := fun s =>
    match x s with
    | (.ok a, t) => f a t
    | (.error e, t) => (.error e, t)

def raise (e : ε) : Act σ ε α := fun s => (.error e, s)

def read : Act σ ε σ := fun s => (.ok s, s)

def write (t : σ) : Act σ ε Unit := fun _ => (.ok (), t)

/-- Lift a pure partial computation; it never touches the store. -/
def lift (r : Except ε α) : Act σ ε α := fun s => (r, s)

/-- BEGIN; body; COMMIT, with a ROLLBACK to the starting store on a raise. -/
def transaction (x : Act σ ε α) : Act σ ε α := fun s =>
  match x s with
  | (.ok a, t) => (.ok a, t)
  | (.error e, _) => (.error e, s)

/-- `try: x finally: cleanup`. A raise of the cleanup takes the place of the outcome. -/
def tryFinally (x : Act σ ε α) (cleanup : Act σ ε Unit) : Act σ ε α := fun s =>
  match cleanup (x s).2 with
  | (.ok _, u) => ((x s).1, u)
  | (.error e, u) => (.error e, u)

/-- The store a computation leaves behind, raise or not. -/
def after (x : Act σ ε α) (s : σ) : σ := (x s).2

/-- Whether a computation raises from a store. -/
def Raises (x : Act σ ε α) (s : σ) : Prop := ∃ e, (x s).1 = .error e

theorem pure_run (a : α) (s : σ) : (pure a : Act σ ε α) s = (.ok a, s) := rfl

theorem bind_run (x : Act σ ε α) (f : α → Act σ ε β) (s : σ) :
    (x >>= f) s = match x s with
      | (.ok a, t) => f a t
      | (.error e, t) => (.error e, t) := rfl

@[simp] theorem raise_run (e : ε) (s : σ) : (raise e : Act σ ε α) s = (.error e, s) := rfl

@[simp] theorem read_run (s : σ) : (read : Act σ ε σ) s = (.ok s, s) := rfl

@[simp] theorem write_run (s t : σ) : (write t : Act σ ε Unit) s = (.ok (), t) := rfl

@[simp] theorem lift_run (r : Except ε α) (s : σ) : (lift r : Act σ ε α) s = (r, s) := rfl

/-- A sequence returns exactly when both parts return. -/
theorem bind_ok {x : Act σ ε α} {f : α → Act σ ε β} {s u : σ} {b : β} :
    (x >>= f) s = (.ok b, u) ↔ ∃ a t, x s = (.ok a, t) ∧ f a t = (.ok b, u) := by
  rw [bind_run]
  constructor
  · intro h
    rcases hx : x s with ⟨_ | a, t⟩
    · rw [hx] at h; cases h
    · rw [hx] at h; exact ⟨a, t, rfl, h⟩
  · rintro ⟨a, t, hx, hf⟩
    rw [hx]; exact hf

/-- A sequence stops at the raise of its first part or goes on from its store. -/
theorem bind_cases (x : Act σ ε α) (f : α → Act σ ε β) (s : σ) :
    (∃ e, x s = (.error e, after x s) ∧ (x >>= f) s = (.error e, after x s)) ∨
    (∃ a, x s = (.ok a, after x s) ∧ (x >>= f) s = f a (after x s)) := by
  unfold after
  rw [bind_run]
  rcases x s with ⟨e | a, t⟩
  · exact .inl ⟨e, rfl, rfl⟩
  · exact .inr ⟨a, rfl, rfl⟩

theorem pure_ok {a b : α} {s t : σ} :
    (pure a : Act σ ε α) s = (.ok b, t) ↔ a = b ∧ s = t := by
  rw [pure_run, Prod.mk.injEq, Except.ok.injEq]

theorem transaction_ok {x : Act σ ε α} {s t : σ} {a : α} :
    transaction x s = (.ok a, t) ↔ x s = (.ok a, t) := by
  unfold transaction
  rcases x s with ⟨_ | b, u⟩ <;> simp

/-- A transaction that raises leaves the store as it found it. -/
theorem transaction_rollback {x : Act σ ε α} {s : σ} (h : Raises (transaction x) s) :
    after (transaction x) s = s := by
  obtain ⟨e, he⟩ := h
  unfold after transaction at *
  rcases hx : x s with ⟨_ | b, u⟩
  · rfl
  · rw [hx] at he; cases he

/-- The store after a transaction is the old one or the one a return left. -/
theorem transaction_after (x : Act σ ε α) (s : σ) :
    after (transaction x) s = s ∨ ∃ a, x s = (.ok a, after (transaction x) s) := by
  unfold after transaction
  rcases hx : x s with ⟨_ | b, u⟩
  · exact .inl rfl
  · exact .inr ⟨b, rfl⟩

theorem discard_run (x : Act σ ε α) (s : σ) :
    (discard x : Act σ ε Unit) s = match x s with
      | (.ok _, t) => (.ok (), t)
      | (.error e, t) => (.error e, t) := rfl

theorem discard_ok {x : Act σ ε α} {s t : σ} {u : Unit} :
    (discard x : Act σ ε Unit) s = (.ok u, t) ↔ ∃ a, x s = (.ok a, t) := by
  rw [discard_run]
  rcases x s with ⟨_ | a, w⟩ <;> simp

theorem discard_after (x : Act σ ε α) (s : σ) :
    after (discard x : Act σ ε Unit) s = after x s := by
  unfold after
  rw [discard_run]
  rcases x s with ⟨_ | a, w⟩ <;> rfl

theorem discard_raises {x : Act σ ε α} {s : σ} :
    Raises (discard x : Act σ ε Unit) s ↔ Raises x s := by
  unfold Raises
  rw [discard_run]
  rcases x s with ⟨_ | a, w⟩ <;> simp

/-- A computation that does not raise returns. -/
theorem returns_of_not_raises {x : Act σ ε α} {s : σ} (h : ¬ Raises x s) :
    ∃ a, x s = (.ok a, after x s) := by
  unfold after
  rcases hx : x s with ⟨e | a, t⟩
  · exact absurd ⟨e, by rw [hx]⟩ h
  · exact ⟨a, rfl⟩

theorem not_raises_of_ok {x : Act σ ε α} {s t : σ} {a : α} (h : x s = (.ok a, t)) :
    ¬ Raises x s := by
  rintro ⟨e, he⟩
  rw [h] at he
  cases he

theorem after_tryFinally (x : Act σ ε α) (cleanup : Act σ ε Unit) (s : σ) :
    after (tryFinally x cleanup) s = after cleanup (after x s) := by
  unfold tryFinally after
  dsimp only
  split
  · next done => rw [done]
  · next raised => rw [raised]

end Act
end Uta.Lib
