/- Loops that remove options from a command line and skip what stands after an option, and the
rewritings that remove options and append their own. -/
import Mathlib.Data.List.Basic
import Mathlib.Tactic.Common

namespace Uta.Lib

/-- The options of a loop: a `bare` one goes with what stands after it, a `joined` one alone. -/
structure Remover (α : Type) where
  bare : α → Bool
  joined : α → Bool

namespace Remover
variable {α : Type} (r : Remover α)

def owns (t : α) : Bool := r.bare t || r.joined t

/-- The loop, from a value of its skip flag. -/
def without : Bool → List α → List α
  | _, [] => []
  | true, _ :: ts => without false ts
  | false, t :: ts =>
    if r.bare t then without true ts
    else if r.joined t then without false ts
    else t :: without false ts

section
-- The equations are made here, once, for the lemmas that follow.
attribute [local simp] without
end

/-- What the loop skips goes anyway. -/
def Spares (goes : α → Bool) : Bool → List α → Prop
  | _, [] => True
  | true, t :: ts => goes t = true ∧ Spares goes false ts
  | false, t :: ts => Spares goes (r.bare t) ts

variable {r} {goes : α → Bool}

theorem without_sublist (skip : Bool) (ts : List α) : (r.without skip ts).Sublist ts := by
  induction ts generalizing skip with
  | nil => cases skip <;> exact .slnil
  | cons t ts ih =>
      cases skip with
      | true => exact (ih false).cons t
      | false =>
          rw [without]
          split_ifs
          · exact (ih true).cons t
          · exact (ih false).cons t
          · exact (ih false).cons_cons t

theorem not_owns {skip : Bool} {ts : List α} {t : α} (kept : t ∈ r.without skip ts) :
    r.owns t = false := by
  induction ts generalizing skip with
  | nil => cases skip <;> cases kept
  | cons u ts ih =>
      cases skip with
      | true => exact ih kept
      | false =>
          rw [without] at kept
          split_ifs at kept with bare joined
          · exact ih kept
          · exact ih kept
          · rcases List.mem_cons.mp kept with rfl | later
            · simp [owns, bare, joined]
            · exact ih later

/-- What the loop does not know at the front, it keeps. -/
theorem without_append {front : List α} (unknown : ∀ t ∈ front, r.owns t = false) (ts : List α) :
    r.without false (front ++ ts) = front ++ r.without false ts := by
  induction front with
  | nil => rfl
  | cons t front ih =>
      have here := Bool.or_eq_false_iff.mp (unknown t List.mem_cons_self)
      rw [List.cons_append, without, if_neg (by simp [here.1]), if_neg (by simp [here.2]),
        ih fun u later => unknown u (List.mem_cons_of_mem t later), List.cons_append]

theorem spares_of_no_bare {ts : List α} (none_ : ∀ t ∈ ts, r.bare t = false) :
    r.Spares goes false ts := by
  induction ts with
  | nil => trivial
  | cons t ts ih =>
      rw [Spares, none_ t List.mem_cons_self]
      exact ih fun u later => none_ u (List.mem_cons_of_mem t later)

variable (own : ∀ t, r.owns t = true → goes t = true)
include own

/-- A loop that spares the rest removes nothing of it. -/
theorem filter_without {skip : Bool} {ts : List α} (spares : r.Spares goes skip ts) :
    (r.without skip ts).filter (!goes ·) = ts.filter (!goes ·) := by
  induction ts generalizing skip with
  | nil => cases skip <;> rfl
  | cons t ts ih =>
      cases skip with
      | true =>
          rw [without, ih spares.2, List.filter_cons_of_neg]
          simp [spares.1]
      | false =>
          rw [without]
          split_ifs with bare joined
          · rw [Spares, bare] at spares
            rw [ih spares, List.filter_cons_of_neg]
            simp [own t (by simp [owns, bare])]
          · rw [Spares, Bool.not_eq_true _ |>.mp bare] at spares
            rw [ih spares, List.filter_cons_of_neg]
            simp [own t (by simp [owns, joined])]
          · rw [Spares, Bool.not_eq_true _ |>.mp bare] at spares
            rw [List.filter_cons, List.filter_cons, ih spares]

omit own in
variable (r goes) in
theorem length_filter_le (skip : Bool) (ts : List α) :
    ((r.without skip ts).filter (!goes ·)).length ≤ (ts.filter (!goes ·)).length :=
  ((without_sublist skip ts).filter _).length_le

/-- A loop that removes nothing of the rest has spared it. -/
theorem spares_of_length {skip : Bool} {ts : List α}
    (same : (ts.filter (!goes ·)).length ≤ ((r.without skip ts).filter (!goes ·)).length) :
    r.Spares goes skip ts := by
  induction ts generalizing skip with
  | nil => cases skip <;> trivial
  | cons t ts ih =>
      cases skip with
      | true =>
          have rest := length_filter_le r goes false ts
          rw [without, List.filter_cons] at same
          split_ifs at same with stays
          · rw [List.length_cons] at same
            omega
          · exact ⟨by simpa using stays, ih same⟩
      | false =>
          rw [without] at same
          rw [Spares]
          split_ifs at same with bare joined
          · rw [List.filter_cons_of_neg (by simp [own t (by simp [owns, bare])])] at same
            rw [bare]
            exact ih same
          · rw [List.filter_cons_of_neg (by simp [own t (by simp [owns, joined])])] at same
            rw [Bool.not_eq_true _ |>.mp bare]
            exact ih same
          · rw [Bool.not_eq_true _ |>.mp bare]
            refine ih ?_
            rw [List.filter_cons, List.filter_cons] at same
            split_ifs at same
            · simpa using same
            · exact same

end Remover

/-- A loop, and what is appended after it. -/
structure Stage (α : Type) where
  remover : Remover α
  fresh : List α → List α

namespace Stage
variable {α : Type}

def run (s : Stage α) (ts : List α) : List α := s.remover.without false ts ++ s.fresh ts

def runAll : List (Stage α) → List α → List α
  | [], ts => ts
  | s :: rest, ts => runAll rest (s.run ts)

def owned (stages : List (Stage α)) (t : α) : Bool := stages.any (·.remover.owns t)

/-- What the stages of a run append. -/
def freshes : List (Stage α) → List α → List α
  | [], _ => []
  | s :: rest, ts => s.fresh ts ++ freshes rest (s.run ts)

/-- No loop of the run skips what is not removed by it or by a later one. -/
def Spared : List (Stage α) → List α → Prop
  | [], _ => True
  | s :: rest, ts => s.remover.Spares (owned (s :: rest)) false ts ∧ Spared rest (s.run ts)

/-- No stage removes what an earlier one appends. -/
def Lasting : List (Stage α) → Prop
  | [] => True
  | s :: rest => (∀ ts, ∀ t ∈ s.fresh ts, owned rest t = false) ∧ Lasting rest

variable {s : Stage α} {rest stages : List (Stage α)} {ts : List α}

@[simp] theorem owned_cons (t : α) : owned (s :: rest) t = (s.remover.owns t || owned rest t) := rfl

theorem filter_run (lasts : ∀ t ∈ s.fresh ts, owned rest t = false) :
    (s.run ts).filter (!owned rest ·) =
      (s.remover.without false ts).filter (!owned (s :: rest) ·) ++ s.fresh ts := by
  rw [run, List.filter_append]
  congr 1
  · refine List.filter_congr fun t kept => ?_
    rw [owned_cons, Remover.not_owns kept, Bool.false_or]
  · exact List.filter_eq_self.mpr fun t new => by simp [lasts t new]

theorem own_of_head (t : α) (own : s.remover.owns t = true) : owned (s :: rest) t = true := by
  simp [own]

/-- A run that spares the rest keeps all of it, and appends. -/
theorem runAll_eq (lasting : Lasting stages) (spared : Spared stages ts) :
    runAll stages ts = ts.filter (!owned stages ·) ++ freshes stages ts := by
  induction stages generalizing ts with
  | nil => simp [runAll, freshes, owned]
  | cons s rest ih =>
      rw [runAll, ih lasting.2 spared.2, filter_run (lasting.1 ts),
        Remover.filter_without own_of_head spared.1, freshes, List.append_assoc]

theorem length_runAll_le (lasting : Lasting stages) (ts : List α) :
    (runAll stages ts).length ≤
      (ts.filter (!owned stages ·)).length + (freshes stages ts).length := by
  induction stages generalizing ts with
  | nil => simp [runAll, freshes, owned]
  | cons s rest ih =>
      have later := ih lasting.2 (s.run ts)
      have first := Remover.length_filter_le s.remover (owned (s :: rest)) false ts
      rw [filter_run (lasting.1 ts), List.length_append] at later
      rw [runAll, freshes, List.length_append]
      omega

/-- A run that is as long as it can be has spared the rest. -/
theorem spared_of_length (lasting : Lasting stages)
    (long : (ts.filter (!owned stages ·)).length + (freshes stages ts).length ≤
      (runAll stages ts).length) : Spared stages ts := by
  induction stages generalizing ts with
  | nil => trivial
  | cons s rest ih =>
      have later := length_runAll_le lasting.2 (s.run ts)
      have first := Remover.length_filter_le s.remover (owned (s :: rest)) false ts
      have sum := congrArg List.length (filter_run (lasting.1 ts))
      rw [List.length_append] at sum
      rw [runAll, freshes, List.length_append] at long
      refine ⟨Remover.spares_of_length own_of_head ?_, ih lasting.2 ?_⟩ <;> omega

theorem mem_runAll {t : α} (kept : t ∈ runAll stages ts) :
    t ∈ ts ∨ ∃ s ∈ stages, ∃ us, t ∈ s.fresh us := by
  induction stages generalizing ts with
  | nil => exact .inl kept
  | cons s rest ih =>
      rcases ih kept with before | ⟨u, later, us, new⟩
      · rcases List.mem_append.mp before with old | new
        · exact .inl ((Remover.without_sublist false ts).subset old)
        · exact .inr ⟨s, List.mem_cons_self, ts, new⟩
      · exact .inr ⟨u, List.mem_cons_of_mem s later, us, new⟩

theorem mem_freshes {t : α} (new : t ∈ freshes stages ts) : ∃ s ∈ stages, ∃ us, t ∈ s.fresh us := by
  induction stages generalizing ts with
  | nil => cases new
  | cons s rest ih =>
      rcases List.mem_append.mp new with here | later
      · exact ⟨s, List.mem_cons_self, ts, here⟩
      · obtain ⟨u, known, us, there⟩ := ih later
        exact ⟨u, List.mem_cons_of_mem s known, us, there⟩

/-- No stage appends an option that one skips after. -/
def Plain (stages : List (Stage α)) : Prop :=
  ∀ s ∈ stages, ∀ ts, ∀ t ∈ s.fresh ts, ∀ u ∈ stages, u.remover.bare t = false

theorem Plain.tail (plain : Plain (s :: rest)) : Plain rest := fun u later ts t new w after =>
  plain u (List.mem_cons_of_mem s later) ts t new w (List.mem_cons_of_mem s after)

theorem spared_of_no_bare (plain : Plain stages)
    (none_ : ∀ t ∈ ts, ∀ s ∈ stages, s.remover.bare t = false) : Spared stages ts := by
  induction stages generalizing ts with
  | nil => trivial
  | cons s rest ih =>
      refine ⟨Remover.spares_of_no_bare fun t old => none_ t old s List.mem_cons_self,
        ih plain.tail fun t old u later => ?_⟩
      rcases List.mem_append.mp old with kept | new
      · exact none_ t ((Remover.without_sublist false ts).subset kept) u
          (List.mem_cons_of_mem s later)
      · exact plain s List.mem_cons_self ts t new u (List.mem_cons_of_mem s later)

/-- No option that one skips after is left. -/
theorem runAll_no_bare (plain : Plain stages) {t : α} (kept : t ∈ runAll stages ts) {s : Stage α}
    (stage : s ∈ stages) : s.remover.bare t = false := by
  induction stages generalizing ts with
  | nil => cases stage
  | cons u rest ih =>
      have kept : t ∈ runAll rest (u.run ts) := kept
      rcases List.mem_cons.mp stage with rfl | later
      · rcases mem_runAll kept with before | ⟨w, after, us, new⟩
        · rcases List.mem_append.mp before with old | new
          · exact (Bool.or_eq_false_iff.mp (Remover.not_owns old)).1
          · exact plain s stage ts t new s stage
        · exact plain w (List.mem_cons_of_mem s after) us t new s stage
      · exact ih plain.tail kept later

end Stage

/-- What is appended unless something like it is there. -/
structure Default (α : Type) where
  present : α → Bool
  token : α

namespace Default
variable {α : Type}

def add (ts : List α) (d : Default α) : List α := if ts.any d.present then ts else ts ++ [d.token]

def addAll (defaults : List (Default α)) (ts : List α) : List α := defaults.foldl add ts

theorem addAll_of_present {defaults : List (Default α)} {ts : List α}
    (present : ∀ d ∈ defaults, ts.any d.present = true) : addAll defaults ts = ts := by
  induction defaults with
  | nil => rfl
  | cons d ds ih =>
      have first : add ts d = ts := if_pos (present d List.mem_cons_self)
      rw [addAll, List.foldl_cons, first]
      exact ih fun e later => present e (List.mem_cons_of_mem d later)

theorem addAll_append (defaults : List (Default α)) (ts : List α) :
    ∃ added, addAll defaults ts = ts ++ added ∧ ∀ t ∈ added, ∃ d ∈ defaults, t = d.token := by
  induction defaults generalizing ts with
  | nil => exact ⟨[], by simp [addAll], by simp⟩
  | cons d ds ih =>
      obtain ⟨added, same, from_⟩ := ih (add ts d)
      have later : ∀ t ∈ added, ∃ e ∈ d :: ds, t = e.token := fun t new =>
        (from_ t new).imp fun e known => ⟨List.mem_cons_of_mem d known.1, known.2⟩
      rw [addAll, List.foldl_cons]
      by_cases present : ts.any d.present = true
      · rw [add, if_pos present] at same ⊢
        exact ⟨added, same, later⟩
      · rw [add, if_neg present] at same ⊢
        refine ⟨d.token :: added, by rw [addAll] at same; simp [same], fun t new => ?_⟩
        rcases List.mem_cons.mp new with rfl | new
        · exact ⟨d, List.mem_cons_self, rfl⟩
        · exact later t new

/-- Afterwards all are present. -/
theorem present_addAll {defaults : List (Default α)} {d : Default α} (known : d ∈ defaults)
    (own : ∀ e ∈ defaults, e.present e.token = true) (ts : List α) :
    (addAll defaults ts).any d.present = true := by
  induction defaults generalizing ts with
  | nil => cases known
  | cons e es ih =>
      have owns := fun f later => own f (List.mem_cons_of_mem e later)
      rw [addAll, List.foldl_cons]
      rcases List.mem_cons.mp known with rfl | later
      · obtain ⟨added, same, -⟩ := addAll_append es (add ts d)
        have here : (add ts d).any d.present = true := by
          rw [add]
          split_ifs with present
          · exact present
          · simp [own d List.mem_cons_self]
        rw [addAll] at same
        rw [same, List.any_append, here, Bool.true_or]
      · exact ih later owns (add ts e)

end Default

/-- Stages that replace options by their own, and defaults that are none of these options. -/
structure Rewriting (α : Type) where
  stages : List (Stage α)
  defaults : List (Default α)
  lasting : Stage.Lasting stages
  plain : Stage.Plain stages
  own : ∀ s ∈ stages, ∀ ts, ∀ t ∈ s.fresh ts, Stage.owned stages t = true
  present : ∀ d ∈ defaults, d.present d.token = true
  apart : ∀ d ∈ defaults, ∀ t, d.present t = true →
    Stage.owned stages t = false ∧ ∀ s ∈ stages, s.remover.bare t = false
  ends : defaults ≠ [] → ∀ ts, Stage.freshes stages ts ≠ []

namespace Rewriting
variable {α : Type} (w : Rewriting α)
open Stage Default

def apply (ts : List α) : List α := addAll w.defaults (runAll w.stages ts)

variable {w} {ts : List α}

theorem owned_freshes {t : α} (new : t ∈ freshes w.stages ts) : owned w.stages t = true := by
  obtain ⟨s, stage, us, here⟩ := mem_freshes new
  exact w.own s stage us t here

theorem apply_no_bare {t : α} (kept : t ∈ w.apply ts) {s : Stage α} (stage : s ∈ w.stages) :
    s.remover.bare t = false := by
  obtain ⟨added, same, from_⟩ := addAll_append w.defaults (runAll w.stages ts)
  rw [apply, same] at kept
  rcases List.mem_append.mp kept with old | new
  · exact runAll_no_bare w.plain old stage
  · obtain ⟨d, known, rfl⟩ := from_ t new
    exact (w.apart d known _ (w.present d known)).2 s stage

/-- A second application moves what is appended to the end. -/
theorem apply_apply (ts : List α) :
    w.apply (w.apply ts) =
      (w.apply ts).filter (!owned w.stages ·) ++ freshes w.stages (w.apply ts) := by
  have spared : Spared w.stages (w.apply ts) :=
    spared_of_no_bare w.plain fun t kept s stage => apply_no_bare kept stage
  have again := runAll_eq w.lasting spared
  rw [apply, again]
  refine addAll_of_present fun d known => ?_
  obtain ⟨t, kept, here⟩ :=
    List.any_eq_true.mp (present_addAll known w.present (runAll w.stages ts))
  have stays : t ∈ (w.apply ts).filter (!owned w.stages ·) :=
    List.mem_filter.mpr ⟨kept, by simp [(w.apart d known t here).1]⟩
  exact List.any_eq_true.mpr ⟨t, List.mem_append_left _ stays, here⟩

/-- A rewriting that changes nothing the second time has appended no default. -/
theorem present_of_again (again : w.apply (w.apply ts) = w.apply ts) {d : Default α}
    (known : d ∈ w.defaults) : (runAll w.stages ts).any d.present = true := by
  obtain ⟨added, same, from_⟩ := addAll_append w.defaults (runAll w.stages ts)
  have before : w.apply ts = runAll w.stages ts ++ added := same
  have some_ := w.ends (List.ne_nil_of_mem known) (w.apply ts)
  rw [apply_apply] at again
  have lasts := congrArg List.getLast? again
  rw [List.getLast?_append_of_ne_nil _ some_] at lasts
  rcases List.eq_nil_or_concat added with rfl | ⟨front, t, rfl⟩
  · rw [List.append_nil] at before
    rw [← before]
    exact present_addAll known w.present _
  · -- the last argument would be a default and one of the options that are replaced
    rw [before, List.concat_eq_append, ← List.append_assoc, List.getLast?_concat] at lasts
    have replaced := owned_freshes (List.mem_of_getLast? lasts)
    obtain ⟨e, other, rfl⟩ := from_ t (by simp)
    rw [(w.apart e other _ (w.present e other)).1] at replaced
    exact absurd replaced Bool.false_ne_true

/-- What a run that spares the rest is, when no default is missing. -/
theorem apply_eq (spared : Spared w.stages ts)
    (present : ∀ d ∈ w.defaults, ts.any d.present = true) :
    w.apply ts = ts.filter (!owned w.stages ·) ++ freshes w.stages ts := by
  rw [apply, runAll_eq w.lasting spared]
  refine addAll_of_present fun d known => ?_
  obtain ⟨t, old, here⟩ := List.any_eq_true.mp (present d known)
  have stays : t ∈ ts.filter (!owned w.stages ·) :=
    List.mem_filter.mpr ⟨old, by simp [(w.apart d known t here).1]⟩
  exact List.any_eq_true.mpr ⟨t, List.mem_append_left _ stays, here⟩

/-- It changes nothing the second time when it then appends the same. -/
theorem again_of_spared (spared : Spared w.stages ts)
    (present : ∀ d ∈ w.defaults, ts.any d.present = true)
    (same : freshes w.stages (w.apply ts) = freshes w.stages ts) :
    w.apply (w.apply ts) = w.apply ts := by
  have gone : (freshes w.stages ts).filter (!owned w.stages ·) = [] :=
    List.filter_eq_nil_iff.mpr fun t new => by simp [owned_freshes new]
  rw [apply_apply, same, apply_eq spared present, List.filter_append, gone, List.append_nil,
    List.filter_filter]
  simp

end Rewriting

end Uta.Lib
