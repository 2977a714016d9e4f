/- Programs that take turns: each reads and writes a shared store by atomic
statements, and a run is any order in which their statements are executed. -/
import Mathlib.Order.Basic
import Uta.Lib.Run

namespace Uta.Lib

/-- A program over the statements `S`; it goes on from the answer to each. -/
inductive Prog (S : Type) (A : S → Type) (ε α : Type) where
  | ret (a : α)
  | raise (e : ε)
  | stmt (s : S) (next : A s → Prog S A ε α)

namespace Prog
variable {S : Type} {A : S → Type} {ε α β : Type}

def bind (p : Prog S A ε α) (f : α → Prog S A ε β) : Prog S A ε β :=
  match p with
  | .ret a => f a
  | .raise e => .raise e
  | .stmt s next => .stmt s fun a => (next a).bind f

instance : Monad (Prog S A ε) where
  pure := .ret
  bind := bind

def perform (s : S) : Prog S A ε (A s) := .stmt s .ret

/-- What the program returns or raises, as a value. -/
def attempt : Prog S A ε α → Prog S A ε (Except ε α)
  | .ret a => .ret (.ok a)
  | .raise e => .ret (.error e)
  | .stmt s next => .stmt s fun a => (next a).attempt

/-- Every statement of the program is one of `Q`. -/
def Only (Q : S → Prop) : Prog S A ε α → Prop
  | .ret _ => True
  | .raise _ => True
  | .stmt s next => Q s ∧ ∀ a, (next a).Only Q

variable {Q : S → Prop}

theorem only_perform {s : S} (one : Q s) : (perform s : Prog S A ε (A s)).Only Q :=
  ⟨one, fun _ => trivial⟩

theorem Only.bind {x : Prog S A ε α} {f : α → Prog S A ε β} (first : x.Only Q)
    (rest : ∀ a, (f a).Only Q) : (x >>= f).Only Q := by
  change (Prog.bind x f).Only Q
  induction x with
  | ret a => exact rest a
  | raise e => trivial
  | stmt s next ih => exact ⟨first.1, fun a => ih a (first.2 a)⟩

theorem only_forM {γ : Type} {f : γ → Prog S A ε PUnit} (xs : List γ) (each : ∀ x ∈ xs, (f x).Only Q) :
    (xs.forM f).Only Q := by
  induction xs with
  | nil => trivial
  | cons x xs ih =>
      refine .bind (each x List.mem_cons_self) fun _ => ?_
      exact ih fun y member => each y (List.mem_cons_of_mem x member)

section Guarded
variable {K : Type} (ok : K → S → Prop) (learn : K → (s : S) → A s → K)

/-- Every statement is one that what the program has learnt allows: it starts with
what `k` says, and each answer adds to it. -/
def Guarded : Prog S A ε α → K → Prop
  | .ret _, _ => True
  | .raise _, _ => True
  | .stmt s next, k => ok k s ∧ ∀ a, (next a).Guarded (learn k s a)

/-- The program is guarded whatever it starts with. -/
def Safe (p : Prog S A ε α) : Prop := ∀ k, p.Guarded ok learn k

variable {ok learn}

theorem safe_perform {s : S} (allowed : ∀ k, ok k s) :
    (perform s : Prog S A ε (A s)).Safe ok learn :=
  fun k => ⟨allowed k, fun _ => trivial⟩

theorem Guarded.bind {x : Prog S A ε α} {f : α → Prog S A ε β} {k : K}
    (first : x.Guarded ok learn k) (rest : ∀ a, (f a).Safe ok learn) :
    (x >>= f).Guarded ok learn k := by
  change (Prog.bind x f).Guarded ok learn k
  induction x generalizing k with
  | ret a => exact rest a k
  | raise e => trivial
  | stmt s next ih => exact ⟨first.1, fun a => ih a (first.2 a)⟩

/-- What was learnt before is still known after the first part. -/
theorem Guarded.bind_le [Preorder K] (grows : ∀ k s a, k ≤ learn k s a) {x : Prog S A ε α}
    {f : α → Prog S A ε β} {k : K} (first : x.Guarded ok learn k)
    (rest : ∀ a l, k ≤ l → (f a).Guarded ok learn l) : (x >>= f).Guarded ok learn k := by
  change (Prog.bind x f).Guarded ok learn k
  induction x generalizing k with
  | ret a => exact rest a k le_rfl
  | raise e => trivial
  | stmt s next ih =>
      exact ⟨first.1, fun a => ih a (first.2 a) fun b l later => rest b l ((grows k s a).trans later)⟩

theorem Safe.bind {x : Prog S A ε α} {f : α → Prog S A ε β} (first : x.Safe ok learn)
    (rest : ∀ a, (f a).Safe ok learn) : (x >>= f).Safe ok learn :=
  fun k => (first k).bind rest

theorem safe_forM {γ : Type} {f : γ → Prog S A ε PUnit} (xs : List γ)
    (each : ∀ x ∈ xs, (f x).Safe ok learn) : (xs.forM f).Safe ok learn := by
  induction xs with
  | nil => exact fun _ => trivial
  | cons x xs ih =>
      refine .bind (each x List.mem_cons_self) fun _ => ?_
      exact ih fun y member => each y (List.mem_cons_of_mem x member)

variable (ok learn) in
/-- Every statement is one that what the program has learnt allows, and `Q` holds
of what it returns and of all it has learnt by then. -/
def Ensures (Q : α → K → Prop) : Prog S A ε α → K → Prop
  | .ret a, k => Q a k
  | .raise _, _ => True
  | .stmt s next, k => ok k s ∧ ∀ a, (next a).Ensures Q (learn k s a)

theorem Ensures.bind {P : α → K → Prop} {R : β → K → Prop} {x : Prog S A ε α} {f : α → Prog S A ε β}
    {k : K} (first : x.Ensures ok learn P k) (rest : ∀ a l, P a l → (f a).Ensures ok learn R l) :
    (x >>= f).Ensures ok learn R k := by
  change (Prog.bind x f).Ensures ok learn R k
  induction x generalizing k with
  | ret a => exact rest a k first
  | raise e => trivial
  | stmt s next ih => exact ⟨first.1, fun a => ih a (first.2 a)⟩

/-- A program that learns nothing. -/
theorem only_of_safe {p : Prog S A ε α} (safe : p.Safe (fun (_ : Unit) s => Q s) fun _ _ _ => ()) :
    p.Only Q := by
  induction p with
  | ret a => trivial
  | raise e => trivial
  | stmt s next ih => exact ⟨(safe ()).1, fun a => ih a fun _ => (safe ()).2 a⟩

end Guarded

section Outcome
variable {σ : Type} (exec : (s : S) → σ → A s × σ)

/-- How the program ends, and the store then, when nothing else is executed meanwhile. -/
def outcome : Prog S A ε α → σ → Except ε α × σ
  | .ret a, st => (.ok a, st)
  | .raise e, st => (.error e, st)
  | .stmt s next, st => (next (exec s st).1).outcome (exec s st).2

/-- The statements that the program executes, when nothing else is executed meanwhile. -/
def executed : Prog S A ε α → σ → List S
  | .ret _, _ => []
  | .raise _, _ => []
  | .stmt s next, st => s :: (next (exec s st).1).executed (exec s st).2

theorem outcome_bind (x : Prog S A ε α) (f : α → Prog S A ε β) (st : σ) :
    (x >>= f).outcome exec st =
      match x.outcome exec st with
      | (.ok a, st') => (f a).outcome exec st'
      | (.error e, st') => (.error e, st') := by
  change (Prog.bind x f).outcome exec st = _
  induction x generalizing st with
  | ret a => rfl
  | raise e => rfl
  | stmt s next ih => exact ih _ _

theorem outcome_bind_ok {x : Prog S A ε α} {a : α} {st st' : σ}
    (first : x.outcome exec st = (.ok a, st')) (f : α → Prog S A ε β) :
    (x >>= f).outcome exec st = (f a).outcome exec st' := by
  rw [outcome_bind, first]

theorem outcome_attempt (p : Prog S A ε α) (st : σ) :
    p.attempt.outcome exec st = (.ok (p.outcome exec st).1, (p.outcome exec st).2) := by
  induction p generalizing st with
  | ret a => rfl
  | raise e => rfl
  | stmt s next ih => exact ih _ _

/-- What relates the stores of every statement relates those of the program. -/
theorem outcome_relates {R : σ → σ → Prop} (refl : ∀ st, R st st)
    (trans : ∀ a b c, R a b → R b c → R a c) (each : ∀ s, Q s → ∀ st, R st (exec s st).2)
    {p : Prog S A ε α} (only : p.Only Q) (st : σ) : R st (p.outcome exec st).2 := by
  induction p generalizing st with
  | ret a => exact refl st
  | raise e => exact refl st
  | stmt s next ih => exact trans _ _ _ (each s only.1 st) (ih _ (only.2 _) _)

/-- Every statement is one of `Q`, and the program does not raise. -/
def Calm (Q : S → Prop) : Prog S A ε α → Prop
  | .ret _ => True
  | .raise _ => False
  | .stmt s next => Q s ∧ ∀ a, (next a).Calm Q

theorem calm_perform {s : S} (one : Q s) : (perform s : Prog S A ε (A s)).Calm Q :=
  ⟨one, fun _ => trivial⟩

theorem Calm.bind {x : Prog S A ε α} {f : α → Prog S A ε β} (first : x.Calm Q)
    (rest : ∀ a, (f a).Calm Q) : (x >>= f).Calm Q := by
  change (Prog.bind x f).Calm Q
  induction x with
  | ret a => exact rest a
  | raise e => exact first.elim
  | stmt s next ih => exact ⟨first.1, fun a => ih a (first.2 a)⟩

theorem calm_forM {γ : Type} {f : γ → Prog S A ε PUnit} (xs : List γ) (each : ∀ x ∈ xs, (f x).Calm Q) :
    (xs.forM f).Calm Q := by
  induction xs with
  | nil => trivial
  | cons x xs ih =>
      refine .bind (each x List.mem_cons_self) fun _ => ?_
      exact ih fun y member => each y (List.mem_cons_of_mem x member)

theorem Calm.only {p : Prog S A ε α} (calm : p.Calm Q) : p.Only Q := by
  induction p with
  | ret a => trivial
  | raise e => trivial
  | stmt s next ih => exact ⟨calm.1, fun a => ih a (calm.2 a)⟩

theorem Calm.returns {p : Prog S A ε α} (calm : p.Calm Q) (st : σ) :
    ∃ a, p.outcome exec st = (.ok a, (p.outcome exec st).2) := by
  induction p generalizing st with
  | ret a => exact ⟨a, rfl⟩
  | raise e => exact calm.elim
  | stmt s next ih => exact ih _ (calm.2 _) _

theorem only_true (p : Prog S A ε α) : p.Only fun _ => True := by
  induction p with
  | ret a => trivial
  | raise e => trivial
  | stmt s next ih => exact ⟨trivial, ih⟩

/-- What every statement keeps, the program keeps. -/
theorem outcome_keeps {P : σ → Prop} (each : ∀ s st, P st → P (exec s st).2) (p : Prog S A ε α)
    {st : σ} (start : P st) : P (p.outcome exec st).2 :=
  outcome_relates exec (R := fun a b => P a → P b) (fun _ => id) (fun _ _ _ first second => second ∘ first)
    (fun s _ st => each s st) p.only_true st start

end Outcome
end Prog

/-- A program under way, with the call it came from. -/
structure Thread (S : Type) (A : S → Type) (ε κ : Type) where
  call : κ
  rest : Prog S A ε Unit

structure System (σ S : Type) (A : S → Type) (ε κ : Type) where
  store : σ
  threads : List (Thread S A ε κ)

/-- A new call, or the next statement of a call under way. -/
inductive Turn (κ : Type) where
  | call (c : κ)
  | go (n : ℕ)

/-- Calls that run one after the other, each for at most `k` statements. -/
def Turn.inOrder {κ : Type} (k : ℕ) (calls : List κ) : List (Turn κ) :=
  calls.zipIdx.flatMap fun (c, n) => .call c :: List.replicate k (.go n)

namespace System
variable {σ S : Type} {A : S → Type} {ε κ : Type}

def idle (store : σ) : System σ S A ε κ := ⟨store, []⟩

/-- The statement that a thread is about to execute, and its call. -/
def pending (sys : System σ S A ε κ) (n : ℕ) : Option (κ × S) :=
  match sys.threads[n]? with
  | some ⟨c, .stmt s _⟩ => some (c, s)
  | _ => none

variable (exec : (s : S) → σ → A s × σ) (body : κ → Prog S A ε Unit)

def turn (sys : System σ S A ε κ) : Turn κ → System σ S A ε κ
  | .call c => { sys with threads := sys.threads ++ [⟨c, body c⟩] }
  | .go n =>
    match sys.threads[n]? with
    | some ⟨c, .stmt s next⟩ =>
      ⟨(exec s sys.store).2, sys.threads.set n ⟨c, next (exec s sys.store).1⟩⟩
    | _ => sys

/-- The statement that a turn executes, if it executes one. -/
def executes (sys : System σ S A ε κ) : Turn κ → Option (κ × S)
  | .call _ => none
  | .go n => sys.pending n

/-- Only the statement of a turn touches the store. -/
theorem turn_store (sys : System σ S A ε κ) (t : Turn κ) :
    (sys.turn exec body t).store =
      match sys.executes t with
      | some (_, s) => (exec s sys.store).2
      | none => sys.store := by
  cases t with
  | call c => rfl
  | go n =>
      rcases found : sys.threads[n]? with _ | ⟨c, _ | _ | ⟨s, next⟩⟩ <;>
        simp only [turn, executes, pending, found]

/-- The statement the turn executes, if any, is one that `C` allows in the
store it meets. -/
def Allowed (C : κ → S → σ → Prop) (sys : System σ S A ε κ) (t : Turn κ) : Prop :=
  match sys.executes t with
  | some (c, s) => C c s sys.store
  | none => True

instance (C : κ → S → σ → Prop) [∀ c s st, Decidable (C c s st)] (sys : System σ S A ε κ)
    (t : Turn κ) : Decidable (Allowed C sys t) := by
  unfold Allowed
  rcases sys.executes t with _ | ⟨c, s⟩ <;> infer_instance

variable {exec body}

/-- A turn keeps `P` of the store exactly when its statement is allowed, if
that holds of every statement. -/
theorem turn_keeps_iff {P : σ → Prop} {C : κ → S → σ → Prop}
    (exact_stmt : ∀ c s st, P st → (P (exec s st).2 ↔ C c s st)) (sys : System σ S A ε κ) (t : Turn κ)
    (before : P sys.store) : P (sys.turn exec body t).store ↔ Allowed C sys t := by
  rw [turn_store]
  unfold Allowed
  rcases sys.executes t with _ | ⟨c, s⟩
  · exact ⟨fun _ => trivial, fun _ => before⟩
  · exact exact_stmt c s sys.store before

theorem turn_keeps {P : σ → Prop} {C : κ → S → σ → Prop}
    (preserved : ∀ c s st, P st → C c s st → P (exec s st).2) (sys : System σ S A ε κ) (t : Turn κ)
    (before : P sys.store) (allowed : Allowed C sys t) : P (sys.turn exec body t).store := by
  rw [turn_store]
  unfold Allowed at allowed
  rcases found : sys.executes t with _ | ⟨c, s⟩
  · exact before
  · rw [found] at allowed
    exact preserved c s sys.store before allowed

/-- A property of the store holds throughout a run exactly when every statement
executed in it is allowed. -/
theorem always_iff_allowed {P : σ → Prop} {C : κ → S → σ → Prop}
    (exact_stmt : ∀ c s st, P st → (P (exec s st).2 ↔ C c s st)) (sys : System σ S A ε κ)
    (ts : List (Turn κ)) (start : P sys.store) :
    Always (turn exec body) (fun sys => P sys.store) sys ts ↔
      Meets (turn exec body) (Allowed C) sys ts :=
  always_iff_meets _ (turn_keeps_iff exact_stmt) sys ts start

theorem always_of_allowed {P : σ → Prop} {C : κ → S → σ → Prop}
    (preserved : ∀ c s st, P st → C c s st → P (exec s st).2) (sys : System σ S A ε κ)
    (ts : List (Turn κ)) (start : P sys.store) (allowed : Meets (turn exec body) (Allowed C) sys ts) :
    Always (turn exec body) (fun sys => P sys.store) sys ts :=
  always_of_meets _ (turn_keeps preserved) sys ts start allowed

theorem allowed_go {C : κ → S → σ → Prop} {sys : System σ S A ε κ} {n : ℕ} {c : κ} {s : S}
    {next : A s → Prog S A ε Unit} (thread : sys.threads[n]? = some ⟨c, .stmt s next⟩)
    (allowed : Allowed C sys (.go n)) : C c s sys.store := by
  simpa only [Allowed, executes, pending, thread] using allowed

theorem allowed_mono {C D : κ → S → σ → Prop} (weaker : ∀ c s st, C c s st → D c s st)
    (sys : System σ S A ε κ) (t : Turn κ) (allowed : Allowed C sys t) : Allowed D sys t := by
  unfold Allowed at allowed ⊢
  rcases found : sys.executes t with _ | ⟨c, s⟩
  · trivial
  · rw [found] at allowed
    exact weaker c s sys.store allowed

/-- Every thread has only statements of `Q` to execute. -/
def Only (Q : S → Prop) (sys : System σ S A ε κ) : Prop := ∀ t ∈ sys.threads, t.rest.Only Q

theorem turn_only {Q : S → Prop} (calls : ∀ c, (body c).Only Q) (sys : System σ S A ε κ) (t : Turn κ)
    (only : sys.Only Q) : (sys.turn exec body t).Only Q := by
  cases t with
  | call c =>
      intro thread member
      rcases List.mem_append.mp member with old | new
      · exact only thread old
      · rw [List.mem_singleton.mp new]
        exact calls c
  | go n =>
      rcases found : sys.threads[n]? with _ | ⟨c, _ | _ | ⟨s, next⟩⟩ <;> simp only [turn, found] <;>
        try exact only
      intro thread member
      rcases List.mem_or_eq_of_mem_set member with old | rfl
      · exact only thread old
      · exact (only _ (List.mem_of_getElem? found)).2 _

theorem executes_only {Q : S → Prop} {sys : System σ S A ε κ} {t : Turn κ} {c : κ} {s : S}
    (only : sys.Only Q) (executed : sys.executes t = some (c, s)) : Q s := by
  cases t with
  | call c => cases executed
  | go n =>
      rcases found : sys.threads[n]? with _ | ⟨d, _ | _ | ⟨s', next⟩⟩ <;>
        simp only [executes, pending, found, reduceCtorEq] at executed
      obtain ⟨rfl, rfl⟩ := Prod.mk.inj (Option.some.inj executed)
      exact (only _ (List.mem_of_getElem? found)).1

section Guarded
variable {K : Type} {ok : K → S → Prop} {learn : K → (s : S) → A s → K} (R : K → σ → Prop)

/-- Every thread goes by something that holds of the store. -/
def Informed (ok : K → S → Prop) (learn : K → (s : S) → A s → K) (R : K → σ → Prop)
    (sys : System σ S A ε κ) : Prop :=
  ∀ t ∈ sys.threads, ∃ k, R k sys.store ∧ t.rest.Guarded ok learn k

variable {R} {sys : System σ S A ε κ}

/-- A turn keeps the threads informed if what holds of the store lasts, and what a
thread learns from an answer holds. -/
theorem turn_informed (calls : ∀ c, (body c).Safe ok learn) (blank : ∃ k, ∀ st, R k st)
    (lasts : ∀ k l s, R l sys.store → ok l s → R k sys.store → R k (exec s sys.store).2)
    (learnt : ∀ k s, R k sys.store → ok k s →
      R (learn k s (exec s sys.store).1) (exec s sys.store).2)
    (informed : sys.Informed ok learn R) (t : Turn κ) :
    (sys.turn exec body t).Informed ok learn R := by
  cases t with
  | call c =>
      intro thread member
      rcases List.mem_append.mp member with old | new
      · exact informed thread old
      · obtain ⟨k, always⟩ := blank
        rw [List.mem_singleton.mp new]
        exact ⟨k, always _, calls c k⟩
  | go n =>
      rcases found : sys.threads[n]? with _ | ⟨c, _ | _ | ⟨s, next⟩⟩ <;> simp only [turn, found] <;>
        try exact informed
      obtain ⟨l, holds, guarded⟩ := informed _ (List.mem_of_getElem? found)
      intro thread member
      rcases List.mem_or_eq_of_mem_set member with old | rfl
      · obtain ⟨k, known, rest⟩ := informed thread old
        exact ⟨k, lasts k l s holds guarded.1 known, rest⟩
      · exact ⟨_, learnt l s holds guarded.1, guarded.2 _⟩

/-- The statement that a turn executes is one that something true allows. -/
theorem executes_informed (informed : sys.Informed ok learn R) {t : Turn κ} {c : κ} {s : S}
    (executed : sys.executes t = some (c, s)) : ∃ k, R k sys.store ∧ ok k s := by
  cases t with
  | call c => cases executed
  | go n =>
      rcases found : sys.threads[n]? with _ | ⟨d, _ | _ | ⟨s', next⟩⟩ <;>
        simp only [executes, pending, found, reduceCtorEq] at executed
      obtain ⟨rfl, rfl⟩ := Prod.mk.inj (Option.some.inj executed)
      obtain ⟨k, holds, guarded⟩ := informed _ (List.mem_of_getElem? found)
      exact ⟨k, holds, guarded.1⟩

end Guarded
end System
end Uta.Lib
