/- Searches of a finite graph: by a list of vertices still to be visited, and in depth
through the vertices seen so far. -/
import Mathlib.Logic.Relation
import Mathlib.Data.List.Nodup
import Mathlib.Algebra.Order.BigOperators.Group.List
import Mathlib.Algebra.Order.Group.Nat
import Mathlib.Algebra.GroupWithZero.Nat
import Mathlib.Logic.Function.Iterate

namespace Uta.Lib

variable {α : Type}

/-- A path leads from one of the roots to `y`. -/
def Reached (edge : α → α → Prop) (roots : List α) (y : α) : Prop :=
  ∃ r ∈ roots, Relation.ReflTransGen edge r y

/-- What contains the roots and is closed under the edges contains all that is reached. -/
theorem Reached.within {edge : α → α → Prop} {roots : List α} {S : α → Prop} {y : α}
    (reached : Reached edge roots y) (rooted : ∀ r ∈ roots, S r)
    (closed : ∀ x, S x → ∀ y, edge x y → S y) : S y := by
  obtain ⟨r, member, path⟩ := reached
  induction path with
  | refl => exact rooted r member
  | tail _ last ih => exact closed _ ih _ last

theorem Reached.mono {edge : α → α → Prop} {roots roots' : List α} {y : α}
    (reached : Reached edge roots y) (more : ∀ r ∈ roots, r ∈ roots') : Reached edge roots' y := by
  obtain ⟨r, member, path⟩ := reached
  exact ⟨r, more r member, path⟩

/-! A list of what is pending. -/

structure Search (α : Type) where
  pending : List α
  visited : List α

namespace Search
variable [DecidableEq α]

/-- The loop takes the first pending vertex. Unless it was visited before, it is visited now, and
what it leads to is appended; `next` may leave out what has been visited. -/
def step (next : List α → α → List α) (s : Search α) : Search α :=
  match s.pending with
  | [] => s
  | x :: rest =>
    if x ∈ s.visited then ⟨rest, s.visited⟩
    else ⟨rest ++ next (s.visited ++ [x]) x, s.visited ++ [x]⟩

/-- `next` lists the edges of a vertex, each end with its companions. It leaves out visited ends,
whose companions have been listed with them. -/
structure Follows (next : List α → α → List α) (edge : α → α → Prop) (companions : α → List α) :
    Prop where
  sound : ∀ visited x y, y ∈ next visited x → edge x y
  complete : ∀ visited x y, edge x y → y ∈ next visited x ∨ ∃ r ∈ visited, y = r ∨ y ∈ companions r
  together : ∀ visited x y, y ∈ next visited x → ∀ z ∈ companions y, z ∈ next visited x

/-- What holds of a search at every turn. -/
structure Going (edge : α → α → Prop) (companions : α → List α) (roots : List α) (s : Search α) :
    Prop where
  visited : ∀ y ∈ s.visited, Reached edge roots y
  pending : ∀ y ∈ s.pending, Reached edge roots y
  rooted : ∀ r ∈ roots, r ∈ s.visited ∨ r ∈ s.pending
  closed : ∀ x ∈ s.visited, ∀ y, edge x y → y ∈ s.visited ∨ y ∈ s.pending
  together : ∀ x, x ∈ s.visited ∨ x ∈ s.pending → ∀ y ∈ companions x, y ∈ s.visited ∨ y ∈ s.pending
  distinct : s.visited.Nodup

section Runs
variable {next : List α → α → List α} {edge : α → α → Prop} {companions : α → List α} {roots : List α}

omit [DecidableEq α] in
theorem going_start (together : ∀ r ∈ roots, ∀ y ∈ companions r, y ∈ roots) :
    Going edge companions roots ⟨roots, []⟩ where
  visited := fun _ none_ => absurd none_ List.not_mem_nil
  pending := fun y member => ⟨y, member, .refl⟩
  rooted := fun _ member => .inr member
  closed := fun _ none_ => absurd none_ List.not_mem_nil
  together := fun x member y joined =>
    .inr (together x (member.resolve_left List.not_mem_nil) y joined)
  distinct := List.nodup_nil

theorem Going.step (follows : Follows next edge companions) {s : Search α}
    (going : Going edge companions roots s) : Going edge companions roots (s.step next) := by
  obtain ⟨pending, visited⟩ := s
  cases pending with
  | nil => exact going
  | cons x rest =>
      by_cases seen : x ∈ visited
      · have same : Search.step next ⟨x :: rest, visited⟩ = ⟨rest, visited⟩ := if_pos seen
        have keep : ∀ {y : α}, y ∈ visited ∨ y ∈ x :: rest → y ∈ visited ∨ y ∈ rest := by
          rintro y (before | later)
          · exact .inl before
          · rcases List.mem_cons.mp later with rfl | later
            · exact .inl seen
            · exact .inr later
        rw [same]
        exact ⟨going.visited, fun y member => going.pending y (List.mem_cons_of_mem x member),
          fun r member => keep (going.rooted r member),
          fun z member y edge => keep (going.closed z member y edge),
          fun z member y joined =>
            keep (going.together z (member.imp id (List.mem_cons_of_mem x)) y joined),
          going.distinct⟩
      · have same : Search.step next ⟨x :: rest, visited⟩ =
            ⟨rest ++ next (visited ++ [x]) x, visited ++ [x]⟩ := if_neg seen
        have here : Reached edge roots x := going.pending x List.mem_cons_self
        have keep : ∀ {y : α}, y ∈ visited ∨ y ∈ x :: rest →
            y ∈ visited ++ [x] ∨ y ∈ rest ++ next (visited ++ [x]) x := by
          rintro y (before | later)
          · exact .inl (List.mem_append_left _ before)
          · rcases List.mem_cons.mp later with rfl | later
            · exact .inl (List.mem_append_right _ (List.mem_singleton_self _))
            · exact .inr (List.mem_append_left _ later)
        have old : ∀ {y : α}, y ∈ visited ++ [x] → y ∈ visited ∨ y ∈ x :: rest := by
          intro y member
          rcases List.mem_append.mp member with before | new
          · exact .inl before
          · exact .inr (List.mem_singleton.mp new ▸ List.mem_cons_self)
        rw [same]
        constructor
        · intro y member
          rcases List.mem_append.mp member with before | new
          · exact going.visited y before
          · rwa [List.mem_singleton.mp new]
        · intro y member
          rcases List.mem_append.mp member with later | new
          · exact going.pending y (List.mem_cons_of_mem x later)
          · obtain ⟨r, root, path⟩ := here
            exact ⟨r, root, path.tail (follows.sound _ x y new)⟩
        · exact fun r member => keep (going.rooted r member)
        · intro z member y leads
          rcases List.mem_append.mp member with before | new
          · exact keep (going.closed z before y leads)
          · rw [List.mem_singleton.mp new] at leads
            rcases follows.complete (visited ++ [x]) x y leads with listed | ⟨r, known, rfl | joined⟩
            · exact .inr (List.mem_append_right rest listed)
            · exact .inl known
            · exact keep (going.together r (old known) y joined)
        · rintro z (before | later) y joined
          · exact keep (going.together z (old before) y joined)
          · rcases List.mem_append.mp later with later | new
            · exact keep (going.together z (.inr (List.mem_cons_of_mem x later)) y joined)
            · exact .inr (List.mem_append_right rest (follows.together _ x z new y joined))
        · exact List.nodup_append.mpr ⟨going.distinct, List.nodup_singleton x,
            fun y member z new same => seen (List.mem_singleton.mp new ▸ same ▸ member)⟩

theorem Going.steps (follows : Follows next edge companions) {s : Search α}
    (going : Going edge companions roots s) (n : ℕ) :
    Going edge companions roots ((Search.step next)^[n] s) := by
  induction n generalizing s with
  | zero => exact going
  | succ n ih => exact ih (going.step follows)

omit [DecidableEq α] in
/-- Where nothing is pending any more, what has been visited is what can be reached. -/
theorem Going.visited_iff {s : Search α} (going : Going edge companions roots s)
    (done : s.pending = []) (y : α) : y ∈ s.visited ↔ Reached edge roots y := by
  have stay : ∀ {z : α}, z ∈ s.visited ∨ z ∈ s.pending → z ∈ s.visited := by
    rintro z (before | later)
    · exact before
    · rw [done] at later
      exact absurd later List.not_mem_nil
  refine ⟨going.visited y, fun reached => ?_⟩
  exact reached.within (fun r member => stay (going.rooted r member))
    fun x member z leads => stay (going.closed x member z leads)

/-! The end of the loop. -/

/-- The turns that are still to come: what is pending, and what the vertices in scope that
have not been visited can add. -/
def cost (degree : α → ℕ) (scope : List α) (s : Search α) : ℕ :=
  s.pending.length + ((scope.filter (· ∉ s.visited)).map degree).sum

theorem sum_unvisited (degree : α → ℕ) {visited : List α} {x : α} (fresh : x ∉ visited)
    (scope : List α) (member : x ∈ scope) :
    degree x + ((scope.filter (· ∉ visited ++ [x])).map degree).sum ≤
      ((scope.filter (· ∉ visited)).map degree).sum := by
  have fewer : ∀ l : List α, ((l.filter (· ∉ visited ++ [x])).map degree).sum ≤
      ((l.filter (· ∉ visited)).map degree).sum := by
    intro l
    refine ((List.monotone_filter_right l fun y kept => ?_).map degree).sum_le_sum (by simp)
    simp only [List.mem_append, not_or, decide_eq_true_eq] at kept ⊢
    exact kept.1
  induction scope with
  | nil => exact absurd member List.not_mem_nil
  | cons y rest ih =>
      by_cases same : y = x
      · subst same
        rw [List.filter_cons_of_neg (by simp), List.filter_cons_of_pos (by simpa using fresh),
          List.map_cons, List.sum_cons]
        exact Nat.add_le_add_left (fewer rest) _
      · have later := ih ((List.mem_cons.mp member).resolve_left fun h => same h.symm)
        by_cases seen : y ∈ visited
        · rw [List.filter_cons_of_neg (by simp [seen]), List.filter_cons_of_neg (by simp [seen])]
          exact later
        · rw [List.filter_cons_of_pos (by simp [seen, same]), List.filter_cons_of_pos (by simp [seen]),
            List.map_cons, List.sum_cons, List.map_cons, List.sum_cons]
          omega

theorem cost_step {degree : α → ℕ} {scope : List α} {s : Search α}
    (bounded : ∀ visited x, (next visited x).length ≤ degree x)
    (outside : ∀ x, x ∉ scope → degree x = 0) (going : s.pending ≠ []) :
    (s.step next).cost degree scope < s.cost degree scope := by
  obtain ⟨pending, visited⟩ := s
  cases pending with
  | nil => exact absurd rfl going
  | cons x rest =>
      by_cases seen : x ∈ visited
      · have same : Search.step next ⟨x :: rest, visited⟩ = ⟨rest, visited⟩ := if_pos seen
        rw [same]
        unfold cost
        simp only [List.length_cons]
        omega
      · have same : Search.step next ⟨x :: rest, visited⟩ =
            ⟨rest ++ next (visited ++ [x]) x, visited ++ [x]⟩ := if_neg seen
        have few := bounded (visited ++ [x]) x
        rw [same]
        unfold cost
        simp only [List.length_append, List.length_cons]
        by_cases inside : x ∈ scope
        · have paid := sum_unvisited degree seen scope inside
          omega
        · have idle := outside x inside
          have kept : scope.filter (· ∉ visited ++ [x]) = scope.filter (· ∉ visited) := by
            refine List.filter_congr fun y member => ?_
            have other : y ≠ x := fun same => inside (same ▸ member)
            simp [other]
          rw [kept]
          omega

/-- The loop ends after as many turns as its start costs. -/
theorem steps_done {degree : α → ℕ} {scope : List α}
    (bounded : ∀ visited x, (next visited x).length ≤ degree x)
    (outside : ∀ x, x ∉ scope → degree x = 0) (n : ℕ) (s : Search α)
    (enough : s.cost degree scope ≤ n) : ((Search.step next)^[n] s).pending = [] := by
  induction n generalizing s with
  | zero =>
      have none_ : s.pending.length = 0 := by
        unfold cost at enough
        omega
      exact List.length_eq_zero_iff.mp none_
  | succ n ih =>
      rw [Function.iterate_succ_apply]
      by_cases done : s.pending = []
      · have still : s.step next = s := by rw [step, done]
        rw [still]
        obtain ⟨pending, visited⟩ := s
        cases done
        clear ih enough still
        induction n with
        | zero => rfl
        | succ n ih => exact ih
      · have less := cost_step bounded outside done
        exact ih _ (by omega)

end Runs
end Search

/-! In depth. -/

namespace Depth
variable {β : Type} (body : α → List (β ⊕ α))

/-- An item of a body, where the vertices are visited by `go`. -/
def take (go : List α → α → List α × List β) (r : List α × List β) : β ⊕ α → List α × List β
  | .inl b => (r.1, r.2 ++ [b])
  | .inr y => ((go r.1 y).1, r.2 ++ (go r.1 y).2)

/-- What a body holds itself. -/
def own (x : α) : List β := (body x).filterMap Sum.getLeft?

/-- A body names a vertex. -/
def Names (x y : α) : Prop := .inr y ∈ body x

variable [DecidableEq α]

/-- What a visit of the roots adds to what has been seen, and what it puts out. With fuel for the
vertices in scope it sees the roots, and all that the added vertices name. -/
structure Adds (scope : List α) (fuel : ℕ) (roots seen : List α) (before : List β) (new : List α)
    (r : List α × List β) : Prop where
  grows : r.1 = seen ++ new
  fresh : ∀ y ∈ new, y ∉ seen
  distinct : new.Nodup
  output : r.2.Perm (before ++ new.flatMap (own body))
  reached : ∀ y ∈ new, Reached (Names body) roots y
  closes : (∀ y ∈ roots, y ∈ scope) → (scope.filter (· ∉ seen)).length < fuel →
    (∀ y ∈ roots, y ∈ r.1) ∧ ∀ z ∈ new, ∀ y, Names body z y → y ∈ r.1

/-- The output of a vertex: what its body holds, with the output of each vertex it names in the place
of the name. A vertex that has been seen puts out nothing. -/
def visit : ℕ → List α → α → List α × List β
  | 0, seen, _ => (seen, [])
  | n + 1, seen, x =>
    if x ∈ seen then (seen, [])
    else (body x).foldl (fun r item =>
      match item with
      | .inl b => (r.1, r.2 ++ [b])
      | .inr y => ((visit n r.1 y).1, r.2 ++ (visit n r.1 y).2)) (seen ++ [x], [])

theorem visit_fresh {n : ℕ} {seen : List α} {x : α} (fresh : x ∉ seen) :
    visit body (n + 1) seen x = (body x).foldl (take (visit body n)) (seen ++ [x], []) := by
  rw [visit, if_neg fresh]
  congr 1

variable {body} {scope : List α} {n : ℕ}

theorem adds_nothing {roots seen : List α} {before : List β}
    (closes : (∀ y ∈ roots, y ∈ scope) → (scope.filter (· ∉ seen)).length < n → ∀ y ∈ roots, y ∈ seen) :
    Adds body scope n roots seen before [] (seen, before) where
  grows := (List.append_nil _).symm
  fresh := fun _ none_ => absurd none_ List.not_mem_nil
  distinct := List.nodup_nil
  output := by rw [List.flatMap_nil, List.append_nil]
  reached := fun _ none_ => absurd none_ List.not_mem_nil
  closes := fun inside enough => ⟨closes inside enough, fun _ none_ => absurd none_ List.not_mem_nil⟩

theorem foldl_adds {go : List α → α → List α × List β}
    (each : ∀ seen x, ∃ new, Adds body scope n [x] seen [] new (go seen x)) (items : List (β ⊕ α))
    (r : List α × List β) : ∃ new, Adds body scope n (items.filterMap Sum.getRight?) r.1
      (r.2 ++ items.filterMap Sum.getLeft?) new (items.foldl (take go) r) := by
  induction items generalizing r with
  | nil =>
      refine ⟨[], ?_⟩
      rw [List.filterMap_nil, List.filterMap_nil, List.append_nil]
      exact adds_nothing fun _ _ _ none_ => absurd none_ List.not_mem_nil
  | cons item items ih =>
      rw [List.foldl_cons]
      obtain ⟨later, adds⟩ := ih (take go r item)
      cases item with
      | inl b =>
          refine ⟨later, adds.grows, adds.fresh, adds.distinct, ?_, adds.reached, adds.closes⟩
          simpa [take] using adds.output
      | inr y =>
          obtain ⟨new, first⟩ := each r.1 y
          have seen : (take go r (.inr y)).1 = r.1 ++ new := first.grows
          have fresh : ∀ z ∈ later, z ∉ r.1 ++ new := seen ▸ adds.fresh
          have kept : ∀ z ∈ (go r.1 y).1, z ∈ (items.foldl (take go) (take go r (.inr y))).1 := by
            intro z member
            rw [adds.grows]
            exact List.mem_append_left later member
          refine ⟨new ++ later, ?_, ?_, ?_, ?_, ?_, ?_⟩
          · rw [adds.grows, seen, List.append_assoc]
          · intro z member old
            rcases List.mem_append.mp member with here | there
            · exact first.fresh z here old
            · exact fresh z there (List.mem_append_left new old)
          · refine List.nodup_append.mpr ⟨first.distinct, adds.distinct, ?_⟩
            rintro z here w there rfl
            exact fresh z there (List.mem_append_right r.1 here)
          · have output : (go r.1 y).2.Perm (new.flatMap (own body)) := first.output
            refine adds.output.trans ?_
            rw [List.flatMap_append, ← List.append_assoc]
            refine List.Perm.append_right _ ?_
            show (r.2 ++ (go r.1 y).2 ++ items.filterMap Sum.getLeft?).Perm
              (r.2 ++ items.filterMap Sum.getLeft? ++ new.flatMap (own body))
            rw [List.append_assoc, List.append_assoc]
            exact (output.append_right _).append_left r.2 |>.trans (List.perm_append_comm.append_left r.2)
          · intro z member
            rcases List.mem_append.mp member with here | there
            · exact Reached.mono (first.reached z here) (by simp)
            · exact Reached.mono (adds.reached z there) (by simp +contextual)
          · intro inside enough
            have rest : ∀ z ∈ items.filterMap Sum.getRight?, z ∈ scope := fun z member =>
              inside z (List.mem_cons_of_mem y member)
            obtain ⟨here, closed⟩ := first.closes
              (fun z member => inside z (List.mem_singleton.mp member ▸ List.mem_cons_self)) enough
            have fewer : (scope.filter (· ∉ (take go r (.inr y)).1)).length < n := by
              refine lt_of_le_of_lt (List.monotone_filter_right scope fun z kept => ?_).length_le enough
              rw [seen] at kept
              simp only [List.mem_append, not_or, decide_eq_true_eq] at kept ⊢
              exact kept.1
            obtain ⟨named, closed'⟩ := adds.closes rest fewer
            constructor
            · intro z member
              rcases List.mem_cons.mp member with rfl | there
              · exact kept z (here z (List.mem_singleton_self z))
              · exact named z there
            · intro z member w leads
              rcases List.mem_append.mp member with early | late
              · exact kept w (closed z early w leads)
              · exact closed' z late w leads

/-- A visit puts out what the bodies of the vertices that it adds hold, each once. -/
theorem visit_adds (inside : ∀ x ∈ scope, ∀ y, Names body x y → y ∈ scope) (n : ℕ) (seen : List α)
    (x : α) : ∃ new, Adds body scope n [x] seen [] new (visit body n seen x) := by
  induction n generalizing seen x with
  | zero => exact ⟨[], adds_nothing fun _ enough => absurd enough (Nat.not_lt_zero _)⟩
  | succ n ih =>
      by_cases before : x ∈ seen
      · rw [visit, if_pos before]
        exact ⟨[], adds_nothing fun _ _ y member => List.mem_singleton.mp member ▸ before⟩
      · rw [visit_fresh body before]
        obtain ⟨new, adds⟩ := foldl_adds ih (body x) (seen ++ [x], [])
        have named : ∀ {y : α}, y ∈ (body x).filterMap Sum.getRight? ↔ Names body x y := by
          intro y
          rw [List.mem_filterMap]
          constructor
          · rintro ⟨item, member, same⟩
            cases item with
            | inl b => cases same
            | inr z =>
                cases same
                exact member
          · exact fun member => ⟨_, member, rfl⟩
        refine ⟨x :: new, ?_, ?_, ?_, adds.output, ?_, ?_⟩
        · rw [adds.grows, List.append_assoc]
          rfl
        · rintro y member old
          rcases List.mem_cons.mp member with rfl | later
          · exact before old
          · exact adds.fresh y later (List.mem_append_left _ old)
        · refine List.nodup_cons.mpr ⟨fun again => ?_, adds.distinct⟩
          exact adds.fresh x again (List.mem_append_right _ (List.mem_singleton_self x))
        · rintro y member
          rcases List.mem_cons.mp member with rfl | later
          · exact ⟨y, List.mem_singleton_self y, .refl⟩
          · obtain ⟨r, root, path⟩ := adds.reached y later
            exact ⟨x, List.mem_singleton_self x, .head (named.mp root) path⟩
        · intro roots enough
          have here : x ∈ scope := roots x (List.mem_singleton_self x)
          have paid := Search.sum_unvisited (fun _ => 1) before scope here
          have ones : ∀ l : List α, (l.map fun _ => 1).sum = l.length := by simp
          rw [ones, ones] at paid
          obtain ⟨own_, closed⟩ := adds.closes (fun y member => inside x here y (named.mp member))
            (by dsimp only; omega)
          constructor
          · intro y member
            rw [List.mem_singleton.mp member, adds.grows]
            exact List.mem_append_left _ (List.mem_append_right _ (List.mem_singleton_self x))
          · intro z member y leads
            rcases List.mem_cons.mp member with rfl | later
            · exact own_ y (named.mpr leads)
            · exact closed z later y leads

/-- A visit from nothing puts out the bodies of all that can be reached, each once. -/
theorem visit_reached (inside : ∀ x ∈ scope, ∀ y, Names body x y → y ∈ scope) {x : α}
    (member : x ∈ scope) (enough : scope.length < n) :
    (visit body n [] x).1.Nodup ∧ (∀ y, y ∈ (visit body n [] x).1 ↔ Reached (Names body) [x] y) ∧
      (visit body n [] x).2.Perm ((visit body n [] x).1.flatMap (own body)) := by
  obtain ⟨new, adds⟩ := visit_adds inside n [] x
  have all : (visit body n [] x).1 = new := adds.grows
  obtain ⟨here, closed⟩ := adds.closes
    (fun y root => List.mem_singleton.mp root ▸ member) (lt_of_le_of_lt (List.length_filter_le _ _) enough)
  rw [all] at here closed ⊢
  refine ⟨adds.distinct, fun y => ⟨adds.reached y, fun reached => ?_⟩, adds.output⟩
  exact reached.within here closed

end Depth
end Uta.Lib
