/- Threads under a discipline: each carries a permit, which says what it may
execute next, and an invariant of the store may speak of the permits. -/
import Mathlib.Data.List.Forall2
import Uta.Lib.Interleave

namespace Uta.Lib

/-- What a thread may execute with a permit, the permit it has after the answer,
and the permits with which it may end. -/
structure Discipline (S : Type) (A : S → Type) (π : Type) where
  start : π
  Allows : π → S → Prop
  after : π → (s : S) → A s → π
  Ends : π → Prop

namespace Prog
variable {S : Type} {A : S → Type} {ε α β π : Type} (d : Discipline S A π)

/-- The program keeps to the discipline, and returns only as `Q` says. -/
def Follows (Q : π → α → Prop) : π → Prog S A ε α → Prop
  | p, .ret a => Q p a
  | p, .raise _ => d.Ends p
  | p, .stmt s next => d.Allows p s ∧ ∀ a, Follows Q (d.after p s a) (next a)

variable {d}

theorem follows_bind {Q : π → β → Prop} {f : α → Prog S A ε β} (x : Prog S A ε α) (p : π) :
    (x.bind f).Follows d Q p ↔ x.Follows d (fun p a => (f a).Follows d Q p) p := by
  induction x generalizing p with
  | ret a => rfl
  | raise e => rfl
  | stmt s next ih => exact and_congr_right fun _ => forall_congr' fun a => ih a (d.after p s a)

theorem Follows.mono {P Q : π → α → Prop} (weaker : ∀ p a, P p a → Q p a) {x : Prog S A ε α} {p : π}
    (follows : x.Follows d P p) : x.Follows d Q p := by
  induction x generalizing p with
  | ret a => exact weaker p a follows
  | raise e => exact follows
  | stmt s next ih => exact ⟨follows.1, fun a => ih a (follows.2 a)⟩

end Prog

namespace System
variable {σ S : Type} {A : S → Type} {ε κ π α β : Type} {d : Discipline S A π}
  {exec : (s : S) → σ → A s × σ} {body : κ → Prog S A ε Unit}

variable (d) in
/-- Every thread keeps to the discipline with its own permit. -/
def Disciplined (sys : System σ S A ε κ) (permits : List π) : Prop :=
  List.Forall₂ (fun t p => t.rest.Follows d (fun p _ => d.Ends p) p) sys.threads permits

/-- What a thread with a permit is about to execute is allowed, and it goes on
with the permit that the answer leaves. -/
theorem Disciplined.pending {sys : System σ S A ε κ} {permits : List π}
    (disciplined : sys.Disciplined d permits) {n : ℕ} {c : κ} {s : S} {next : A s → Prog S A ε Unit}
    (thread : sys.threads[n]? = some ⟨c, .stmt s next⟩) :
    ∃ p, permits[n]? = some p ∧ d.Allows p s ∧
      ∀ a, (next a).Follows d (fun p _ => d.Ends p) (d.after p s a) := by
  have bound : n < sys.threads.length := (List.getElem?_eq_some_iff.mp thread).1
  have other : n < permits.length := disciplined.length_eq ▸ bound
  have here := disciplined.get bound other
  have same : sys.threads.get ⟨n, bound⟩ = ⟨c, .stmt s next⟩ := (List.getElem?_eq_some_iff.mp thread).2
  rw [same] at here
  exact ⟨permits.get ⟨n, other⟩, List.getElem?_eq_getElem other, here.1, here.2⟩

theorem forall₂_mem_right {R : α → β → Prop} {xs : List α} {ys : List β} (all : List.Forall₂ R xs ys)
    {y : β} (member : y ∈ ys) : ∃ x ∈ xs, R x y := by
  induction all with
  | nil => cases member
  | @cons x z xs ys head tail ih =>
      rcases List.mem_cons.mp member with rfl | later
      · exact ⟨x, List.mem_cons_self, head⟩
      · obtain ⟨w, inside, related⟩ := ih later
        exact ⟨w, List.mem_cons_of_mem _ inside, related⟩

/-- Every permit is that of a thread. -/
theorem Disciplined.thread {sys : System σ S A ε κ} {permits : List π}
    (disciplined : sys.Disciplined d permits) {p : π} (member : p ∈ permits) :
    ∃ t ∈ sys.threads, t.rest.Follows d (fun p _ => d.Ends p) p :=
  forall₂_mem_right disciplined member

theorem forall₂_set {R : α → β → Prop} {xs : List α} {ys : List β} (all : List.Forall₂ R xs ys) (n : ℕ)
    {x : α} {y : β} (related : R x y) : List.Forall₂ R (xs.set n x) (ys.set n y) := by
  induction all generalizing n with
  | nil => exact .nil
  | cons head tail ih =>
      cases n with
      | zero => exact .cons related tail
      | succ n => exact .cons head (ih n)

/-- What the threads show, their permits hold. -/
theorem forall₂_filterMap_sublist {γ : Type} {R : α → β → Prop} {f : α → Option γ} {g : β → Option γ}
    {xs : List α} {ys : List β} (all : List.Forall₂ R xs ys)
    (shows : ∀ x y, R x y → ∀ c, f x = some c → g y = some c) :
    (xs.filterMap f).Sublist (ys.filterMap g) := by
  induction all with
  | nil => exact .slnil
  | @cons x y xs ys head tail ih =>
      cases seen : f x with
      | none =>
          rw [List.filterMap_cons_none seen]
          exact ih.trans ((List.sublist_cons_self y ys).filterMap g)
      | some c =>
          rw [List.filterMap_cons_some seen, List.filterMap_cons_some (shows x y head c seen)]
          exact ih.cons_cons c

/-- What the permits hold, when one of them is exchanged. -/
theorem filterMap_set_perm {f : π → Option α} {permits : List π} {n : ℕ} {p : π}
    (here : permits[n]? = some p) (q : π) :
    ((f q).toList ++ permits.filterMap f).Perm ((f p).toList ++ (permits.set n q).filterMap f) := by
  induction permits generalizing n with
  | nil => cases here
  | cons r permits ih =>
      have unfold_cons : ∀ (x : π) (xs : List π),
          (x :: xs).filterMap f = (f x).toList ++ xs.filterMap f := by
        intro x xs
        rw [List.filterMap_cons]
        cases f x <;> rfl
      cases n with
      | zero =>
          obtain rfl : r = p := Option.some.inj here
          rw [List.set_cons_zero, unfold_cons, unfold_cons, ← List.append_assoc, ← List.append_assoc]
          exact List.perm_append_comm.append_right _
      | succ n =>
          have later := ih (n := n) here
          rw [List.set_cons_succ, unfold_cons, unfold_cons]
          refine (List.perm_append_comm_assoc _ _ _).trans ?_
          refine (later.append_left _).trans ?_
          exact List.perm_append_comm_assoc _ _ _

variable {I : σ → List π → Prop} {C : System σ S A ε κ → Turn κ → Prop}

/-- One turn keeps the discipline, and an invariant that each statement keeps. -/
theorem turn_disciplined (calls : ∀ c, (body c).Follows d (fun p _ => d.Ends p) d.start)
    (opens : ∀ st permits, I st permits → I st (permits ++ [d.start]))
    (keeps : ∀ (sys : System σ S A ε κ) permits n c s next p, sys.Disciplined d permits →
      sys.threads[n]? = some ⟨c, .stmt s next⟩ → permits[n]? = some p → d.Allows p s →
      C sys (.go n) → I sys.store permits →
      I (exec s sys.store).2 (permits.set n (d.after p s (exec s sys.store).1)))
    (sys : System σ S A ε κ) (t : Turn κ)
    (before : ∃ permits, sys.Disciplined d permits ∧ I sys.store permits) (allowed : C sys t) :
    ∃ permits, (sys.turn exec body t).Disciplined d permits ∧
      I (sys.turn exec body t).store permits := by
  obtain ⟨permits, disciplined, holds⟩ := before
  cases t with
  | call c =>
      refine ⟨permits ++ [d.start], ?_, opens _ _ holds⟩
      exact List.rel_append disciplined (.cons (calls c) .nil)
  | go n =>
      rcases thread : sys.threads[n]? with _ | ⟨c, _ | _ | ⟨s, next⟩⟩
      · refine ⟨permits, ?_, ?_⟩ <;> simp only [turn, thread] <;> assumption
      · refine ⟨permits, ?_, ?_⟩ <;> simp only [turn, thread] <;> assumption
      · refine ⟨permits, ?_, ?_⟩ <;> simp only [turn, thread] <;> assumption
      · obtain ⟨p, held, permitted, follows⟩ := disciplined.pending thread
        refine ⟨permits.set n (d.after p s (exec s sys.store).1), ?_, ?_⟩ <;> simp only [turn, thread]
        · exact forall₂_set disciplined n (follows _)
        · exact keeps sys permits n c s next p disciplined thread held permitted allowed holds

/-- A run keeps the discipline and the invariant, from a store without threads. -/
theorem always_disciplined (calls : ∀ c, (body c).Follows d (fun p _ => d.Ends p) d.start)
    (opens : ∀ st permits, I st permits → I st (permits ++ [d.start]))
    (keeps : ∀ (sys : System σ S A ε κ) permits n c s next p, sys.Disciplined d permits →
      sys.threads[n]? = some ⟨c, .stmt s next⟩ → permits[n]? = some p → d.Allows p s →
      C sys (.go n) → I sys.store permits →
      I (exec s sys.store).2 (permits.set n (d.after p s (exec s sys.store).1)))
    {store : σ} (ts : List (Turn κ)) (start : I store []) (allowed : Meets (turn exec body) C (idle store) ts) :
    Always (turn exec body) (fun sys => ∃ permits, sys.Disciplined d permits ∧ I sys.store permits)
      (idle store) ts :=
  always_of_meets _ (turn_disciplined calls opens keeps) (idle store) ts ⟨[], .nil, start⟩ allowed

end System
end Uta.Lib
