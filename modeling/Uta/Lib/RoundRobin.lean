/- Dealing out of groups in rounds, one item of each group at a time, while a budget lasts. -/
import Mathlib.Data.List.Nodup
import Mathlib.Data.List.Infix
import Mathlib.Algebra.GroupWithZero.Nat

namespace Uta.Lib.RoundRobin

variable {κ α : Type}

/-- One round: what is taken, what is left of the budget, and the groups that have items left. -/
def deal : ℕ → List (κ × List α) → List (κ × α) × ℕ × List (κ × List α)
  | budget, [] => ([], budget, [])
  | 0, _ :: _ => ([], 0, [])
  | budget + 1, (_, []) :: rest => deal (budget + 1) rest
  | budget + 1, (k, a :: items) :: rest =>
    let (taken, left, next) := deal budget rest
    ((k, a) :: taken, left, if items.isEmpty then next else (k, items) :: next)

/-- How many rounds groups can at most take. -/
def size (groups : List (κ × List α)) : ℕ := (groups.map fun g => g.2.length + 1).sum

@[simp] theorem size_nil : size ([] : List (κ × List α)) = 0 := rfl

@[simp] theorem size_cons (g : κ × List α) (rest : List (κ × List α)) :
    size (g :: rest) = g.2.length + 1 + size rest := List.sum_cons

/-- A round gives away at least an item or a group. -/
theorem size_deal (budget : ℕ) (groups : List (κ × List α)) :
    size (deal budget groups).2.2 ≤ size groups ∧
      (groups ≠ [] → size (deal budget groups).2.2 < size groups) := by
  induction groups generalizing budget with
  | nil => exact ⟨le_rfl, fun left => absurd rfl left⟩
  | cons g rest ih =>
      obtain ⟨k, items⟩ := g
      have smaller : size (deal budget ((k, items) :: rest)).2.2 < size ((k, items) :: rest) := by
        rcases budget with _ | budget
        · simp only [deal, size_nil, size_cons]
          omega
        rcases items with _ | ⟨a, items⟩
        · have later := (ih (budget + 1)).1
          simp only [deal, size_cons]
          omega
        · have later := (ih budget).1
          unfold deal
          generalize deal budget rest = round at later ⊢
          obtain ⟨taken, left, next⟩ := round
          rw [size_cons, List.length_cons]
          dsimp only at later ⊢
          cases items with
          | nil =>
              simp only [List.isEmpty_nil, if_true]
              omega
          | cons b items =>
              simp only [List.isEmpty_cons, Bool.false_eq_true, if_false, size_cons,
                List.length_cons]
              omega
      exact ⟨smaller.le, fun _ => smaller⟩

/-- Rounds are dealt while there are a budget and groups: what is taken in all of them. -/
def roundRobin (budget : ℕ) (groups : List (κ × List α)) : List (κ × α) :=
  if _ : 0 < budget ∧ groups ≠ [] then
    (deal budget groups).1 ++ roundRobin (deal budget groups).2.1 (deal budget groups).2.2
  else []
termination_by size groups
decreasing_by exact (size_deal budget groups).2 ‹0 < budget ∧ groups ≠ []›.2

/-! A round. -/

/-- No group is empty. -/
def Full (groups : List (κ × List α)) : Prop := ∀ g ∈ groups, g.2 ≠ []

/-- The first items of the groups. -/
def heads (groups : List (κ × List α)) : List (κ × α) :=
  groups.flatMap fun g => g.2.head?.toList.map (g.1, ·)

/-- The groups without their first items, if they have others. -/
def tails (groups : List (κ × List α)) : List (κ × List α) :=
  (groups.map fun g => (g.1, g.2.tail)).filter fun g => !g.2.isEmpty

section Round
variable {groups : List (κ × List α)}

/-- What one round does to groups that have items. -/
theorem deal_spec (full : Full groups) (budget : ℕ) :
    (deal budget groups).1 = heads (groups.take budget) ∧
      (deal budget groups).2.1 = budget - groups.length ∧
      (groups.length ≤ budget → (deal budget groups).2.2 = tails groups) := by
  induction groups generalizing budget with
  | nil => simp [deal, heads, tails]
  | cons g rest ih =>
      obtain ⟨k, items⟩ := g
      have later : Full rest := fun g member => full g (List.mem_cons_of_mem _ member)
      rcases budget with _ | budget
      · simp [deal, heads]
      rcases items with _ | ⟨a, items⟩
      · exact absurd rfl (full (k, []) List.mem_cons_self)
      obtain ⟨taken, left, next⟩ := ih later budget
      unfold deal
      dsimp only
      refine ⟨?_, ?_, fun enough => ?_⟩
      · rw [taken]
        rfl
      · rw [left, List.length_cons]
        omega
      · have short : rest.length ≤ budget := by
          rw [List.length_cons] at enough
          omega
        rw [next short]
        cases items <;> rfl

theorem heads_length (full : Full groups) : (heads groups).length = groups.length := by
  induction groups with
  | nil => rfl
  | cons g rest ih =>
      obtain ⟨k, items⟩ := g
      rcases items with _ | ⟨a, items⟩
      · exact absurd rfl (full (k, []) List.mem_cons_self)
      · have rest_length := ih fun g member => full g (List.mem_cons_of_mem _ member)
        change (heads rest).length + 1 = rest.length + 1
        rw [rest_length]

theorem mem_heads {t : κ × α} (member : t ∈ heads groups) :
    ∃ g ∈ groups, g.1 = t.1 ∧ t.2 ∈ g.2 := by
  obtain ⟨g, known, own⟩ := List.mem_flatMap.mp member
  obtain ⟨a, first, rfl⟩ := List.mem_map.mp own
  exact ⟨g, known, rfl, List.mem_of_mem_head? (Option.mem_toList.mp first)⟩

theorem tails_full : Full (tails groups) := by
  intro g member empty
  have left := (List.mem_filter.mp member).2
  rw [empty] at left
  exact nomatch left

theorem tails_keys : ((tails groups).map Prod.fst).Sublist (groups.map Prod.fst) := by
  have same : (groups.map fun g => (g.1, g.2.tail)).map Prod.fst = groups.map Prod.fst := by
    rw [List.map_map]
    rfl
  rw [← same]
  exact List.filter_sublist.map _

theorem mem_tails {k : κ} {items : List α} :
    (k, items) ∈ tails groups ↔ ∃ g ∈ groups, g.1 = k ∧ g.2.tail = items ∧ items ≠ [] := by
  simp only [tails, List.mem_filter, List.mem_map, Prod.mk.injEq]
  constructor
  · rintro ⟨⟨g, member, key, tail⟩, left⟩
    exact ⟨g, member, key, tail, by rintro rfl; exact nomatch left⟩
  · rintro ⟨g, member, key, tail, left⟩
    exact ⟨⟨g, member, key, tail⟩, by simpa using left⟩

end Round

/-! What is taken of a group. -/

section Taken
variable [DecidableEq κ]

/-- The items that were taken under a key, in their order. -/
def takenOf (k : κ) (taken : List (κ × α)) : List α :=
  (taken.filter fun t => t.1 = k).map Prod.snd

theorem takenOf_append (k : κ) (first second : List (κ × α)) :
    takenOf k (first ++ second) = takenOf k first ++ takenOf k second := by
  rw [takenOf, List.filter_append, List.map_append]
  rfl

theorem takenOf_eq_nil {k : κ} {taken : List (κ × α)} (other : ∀ t ∈ taken, t.1 ≠ k) :
    takenOf k taken = [] := by
  have none_ : taken.filter (fun t => t.1 = k) = [] :=
    List.filter_eq_nil_iff.mpr fun t member same => other t member (of_decide_eq_true same)
  rw [takenOf, none_]
  rfl

variable {groups : List (κ × List α)}

/-- A round takes the first item of each group. -/
theorem takenOf_heads (once : (groups.map Prod.fst).Nodup) {g : κ × List α} (member : g ∈ groups) :
    takenOf g.1 (heads groups) = g.2.head?.toList := by
  induction groups with
  | nil => exact nomatch member
  | cons h rest ih =>
      rw [List.map_cons, List.nodup_cons] at once
      have split : heads (h :: rest) = h.2.head?.toList.map (h.1, ·) ++ heads rest := rfl
      rw [split, takenOf_append]
      rcases List.mem_cons.mp member with rfl | later
      · have none_ : takenOf g.1 (heads rest) = [] := takenOf_eq_nil fun t inside same => by
          obtain ⟨other, known, key, _⟩ := mem_heads inside
          exact once.1 (List.mem_map.mpr ⟨other, known, key.trans same⟩)
        rw [none_, List.append_nil]
        cases g.2.head? with
        | none => rfl
        | some a => simp [takenOf]
      · have apart : h.1 ≠ g.1 := fun same =>
          once.1 (List.mem_map.mpr ⟨g, later, same.symm⟩)
        have none_ : takenOf g.1 (h.2.head?.toList.map (h.1, ·)) = [] :=
          takenOf_eq_nil fun t inside => by
            obtain ⟨a, _, rfl⟩ := List.mem_map.mp inside
            exact apart
        rw [none_, ih once.2 later, List.nil_append]

end Taken

/-! All rounds. -/

/-- What dealing out a budget promises: no more is taken than the budget, of each group first items
and of no others, and no group gives two more than one that has items left. -/
structure Fair [DecidableEq κ] (budget : ℕ) (groups : List (κ × List α)) (taken : List (κ × α)) :
    Prop where
  within : taken.length ≤ budget
  known : ∀ t ∈ taken, ∃ g ∈ groups, g.1 = t.1 ∧ t.2 ∈ g.2
  first : ∀ g ∈ groups, takenOf g.1 taken <+: g.2
  even : ∀ g ∈ groups, ∀ h ∈ groups,
    (takenOf h.1 taken).length ≤ (takenOf g.1 taken).length + 1 ∨ takenOf g.1 taken = g.2

section Run
variable [DecidableEq κ] {groups : List (κ × List α)}

/-- A round that the budget does not outlast. -/
theorem fair_last (budget : ℕ) (full : Full groups) (once : (groups.map Prod.fst).Nodup) :
    Fair budget groups (heads (groups.take budget)) := by
  have full' : Full (groups.take budget) := fun g member => full g (List.mem_of_mem_take member)
  have once' : ((groups.take budget).map Prod.fst).Nodup :=
    once.sublist ((List.take_sublist _ _).map _)
  have one : ∀ g ∈ groups, takenOf g.1 (heads (groups.take budget)) = g.2.head?.toList ∨
      takenOf g.1 (heads (groups.take budget)) = [] := by
    intro g member
    by_cases early : g ∈ groups.take budget
    · exact .inl (takenOf_heads once' early)
    · refine .inr (takenOf_eq_nil fun t inside same => early ?_)
      obtain ⟨h, known, key, _⟩ := mem_heads inside
      have equal := List.inj_on_of_nodup_map once (List.mem_of_mem_take known) member
        (key.trans same)
      exact equal ▸ known
  have few : ∀ g ∈ groups, (takenOf g.1 (heads (groups.take budget))).length ≤ 1 := by
    intro g member
    rcases one g member with head | none_
    · rw [head]
      cases g.2.head? <;> simp
    · simp [none_]
  refine ⟨?_, fun t inside => ?_, fun g member => ?_, fun g _ h other => .inl ?_⟩
  · rw [heads_length full', List.length_take]
    exact min_le_left _ _
  · obtain ⟨g, known, own⟩ := mem_heads inside
    exact ⟨g, List.mem_of_mem_take known, own⟩
  · rcases one g member with head | none_
    · rw [head]
      cases g.2 with
      | nil => exact List.nil_prefix
      | cons a items => exact ⟨items, rfl⟩
    · rw [none_]
      exact List.nil_prefix
  · exact (few h other).trans (Nat.le_add_left _ _)

/-- A round in which each group gives, and the rounds after it. -/
theorem fair_round {budget : ℕ} {later : List (κ × α)} (full : Full groups)
    (once : (groups.map Prod.fst).Nodup) (enough : groups.length ≤ budget)
    (fair : Fair (budget - groups.length) (tails groups) later) :
    Fair budget groups (heads groups ++ later) := by
  have tail : ∀ t ∈ later, ∃ g ∈ groups, g.1 = t.1 ∧ t.2 ∈ g.2.tail := by
    intro t inside
    obtain ⟨⟨k, items⟩, known, key, own⟩ := fair.known t inside
    obtain ⟨g, member, own_key, rfl, _⟩ := mem_tails.mp known
    exact ⟨g, member, own_key.trans key, own⟩
  -- A group whose first item was its only one gives nothing more.
  have spent : ∀ g ∈ groups, g.2.tail = [] → takenOf g.1 later = [] := by
    intro g member last
    refine takenOf_eq_nil fun t inside same => ?_
    obtain ⟨h, other, key, own⟩ := tail t inside
    rw [List.inj_on_of_nodup_map once other member (key.trans same), last] at own
    exact nomatch own
  have taken : ∀ g ∈ groups, ∃ a, g.2 = a :: g.2.tail ∧
      takenOf g.1 (heads groups ++ later) = a :: takenOf g.1 later := by
    intro g member
    obtain ⟨a, items, own⟩ := List.exists_cons_of_ne_nil (full g member)
    refine ⟨a, by rw [own]; rfl, ?_⟩
    rw [takenOf_append, takenOf_heads once member, own]
    rfl
  have left : ∀ g ∈ groups, g.2.tail ≠ [] → (g.1, g.2.tail) ∈ tails groups := fun g member more =>
    mem_tails.mpr ⟨g, member, rfl, rfl, more⟩
  refine ⟨?_, fun t inside => ?_, fun g member => ?_, fun g member h other => ?_⟩
  · have within := fair.within
    rw [List.length_append, heads_length full]
    omega
  · rcases List.mem_append.mp inside with first | inside
    · exact mem_heads first
    · obtain ⟨g, member, key, own⟩ := tail t inside
      exact ⟨g, member, key, List.mem_of_mem_tail own⟩
  · obtain ⟨a, own, given⟩ := taken g member
    rw [given, own, List.prefix_cons_inj]
    by_cases more : g.2.tail = []
    · rw [spent g member more]
      exact List.nil_prefix
    · exact fair.first _ (left g member more)
  · obtain ⟨a, own, given⟩ := taken g member
    obtain ⟨b, own', given'⟩ := taken h other
    rw [given, given']
    by_cases more : g.2.tail = []
    · rw [spent g member more]
      refine .inr ?_
      rw [own, more]
    by_cases more' : h.2.tail = []
    · rw [spent h other more']
      exact .inl (by simp)
    rcases fair.even _ (left g member more) _ (left h other more') with even | exhausted
    · refine .inl ?_
      simp only [List.length_cons]
      exact Nat.succ_le_succ even
    · refine .inr ?_
      rw [show takenOf g.1 later = g.2.tail from exhausted, ← own]

/-- Groups of different keys, none of them empty, are dealt out fairly. -/
theorem roundRobin_fair (budget : ℕ) (full : Full groups) (once : (groups.map Prod.fst).Nodup) :
    Fair budget groups (roundRobin budget groups) := by
  induction size_eq : size groups using Nat.strong_induction_on generalizing budget groups with
  | _ n ih =>
      unfold roundRobin
      by_cases going : 0 < budget ∧ groups ≠ []
      · rw [dif_pos going]
        obtain ⟨given, left, next⟩ := deal_spec full budget
        rcases Nat.lt_or_ge budget groups.length with short | enough
        · have spent : (deal budget groups).2.1 = 0 := by omega
          have last : roundRobin (deal budget groups).2.1 (deal budget groups).2.2 = [] := by
            rw [spent, roundRobin, dif_neg fun both => lt_irrefl _ both.1]
          rw [last, List.append_nil, given]
          exact fair_last budget full once
        · have smaller := (size_deal budget groups).2 going.2
          rw [next enough, size_eq] at smaller
          rw [given, left, next enough, List.take_of_length_le enough]
          exact fair_round full once enough
            (ih _ smaller _ tails_full (once.sublist tails_keys) rfl)
      · rw [dif_neg going]
        refine ⟨Nat.zero_le _, nofun, fun g _ => List.nil_prefix, fun g member h _ => .inl ?_⟩
        exact Nat.zero_le _

end Run

end Uta.Lib.RoundRobin
