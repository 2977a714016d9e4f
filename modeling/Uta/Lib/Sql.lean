/- SQL's conditions. A comparison with NULL is NULL, and a statement takes the rows of which its
condition is true. -/
import Uta.Lib.Table

namespace Uta.Lib.Sql
variable {α : Type} [DecidableEq α]

/-- `IS NULL`. -/
def isNull {β : Type} (a : Option β) : Option Bool := some a.isNone

/-- `=`; `none` is NULL. -/
def eq (a b : Option α) : Option Bool := a.bind fun x => b.map fun y => decide (x = y)

/-- `!=`. -/
def ne (a b : Option α) : Option Bool := (eq a b).map not

/-- `IN`, of a list without NULL. -/
def inList (a : Option α) (values : List α) : Option Bool := a.map fun x => decide (x ∈ values)

/-- `NOT IN`. -/
def notIn (a : Option α) (values : List α) : Option Bool := (inList a values).map not

/-- Conditions joined by `OR`. -/
def anyOf (conditions : List (Option Bool)) : Option Bool :=
  if some true ∈ conditions then some true else if none ∈ conditions then none else some false

/-- Conditions joined by `AND`. -/
def allOf (conditions : List (Option Bool)) : Option Bool :=
  if some false ∈ conditions then some false else if none ∈ conditions then none else some true

/-- `NULLIF`. -/
def nullif (a b : Option α) : Option α := if eq a b = some true then none else a

/-- `WHERE`. -/
def Holds (condition : Option Bool) : Prop := condition = some true

instance (condition : Option Bool) : Decidable (Holds condition) :=
  inferInstanceAs (Decidable (_ = _))

/-! When a condition is true. -/

@[simp] theorem holds_isNull {β : Type} (a : Option β) : Holds (isNull a) ↔ a = none := by
  simp [Holds, isNull]

@[simp] theorem holds_eq (a b : Option α) : Holds (eq a b) ↔ ∃ x, a = some x ∧ b = some x := by
  cases a <;> cases b <;> simp [Holds, eq, eq_comm]

@[simp] theorem holds_ne (a b : Option α) :
    Holds (ne a b) ↔ ∃ x y, a = some x ∧ b = some y ∧ x ≠ y := by
  cases a <;> cases b <;> simp [Holds, ne, eq]

@[simp] theorem holds_inList (a : Option α) (values : List α) :
    Holds (inList a values) ↔ ∃ x ∈ values, a = some x := by
  cases a <;> simp [Holds, inList]

@[simp] theorem holds_notIn (a : Option α) (values : List α) :
    Holds (notIn a values) ↔ ∃ x, a = some x ∧ x ∉ values := by
  cases a <;> simp [Holds, notIn, inList]

@[simp] theorem holds_anyOf (conditions : List (Option Bool)) :
    Holds (anyOf conditions) ↔ ∃ c ∈ conditions, Holds c := by
  by_cases met : some true ∈ conditions
  · exact ⟨fun _ => ⟨_, met, rfl⟩, fun _ => if_pos met⟩
  · constructor
    · intro held
      rw [Holds, anyOf, if_neg met] at held
      split at held <;> cases held
    · rintro ⟨c, member, held⟩
      exact absurd (held ▸ member) met

theorem holds_anyOf_append (first second : List (Option Bool)) :
    Holds (anyOf (first ++ second)) ↔ Holds (anyOf first) ∨ Holds (anyOf second) := by
  simp only [holds_anyOf, List.mem_append, or_and_right, exists_or]

@[simp] theorem holds_allOf (conditions : List (Option Bool)) :
    Holds (allOf conditions) ↔ ∀ c ∈ conditions, Holds c := by
  constructor
  · intro held c member
    have noFalse : some false ∉ conditions := fun broken => by
      rw [Holds, allOf, if_pos broken] at held; cases held
    have noNull : none ∉ conditions := fun null => by
      rw [Holds, allOf, if_neg noFalse, if_pos null] at held; cases held
    rcases c with _ | _ | _
    · exact absurd member noNull
    · exact absurd member noFalse
    · rfl
  · intro each
    have noFalse : some false ∉ conditions := fun broken => by cases each _ broken
    have noNull : none ∉ conditions := fun null => by cases each _ null
    rw [Holds, allOf, if_neg noFalse, if_neg noNull]

/-! `COALESCE(NULLIF(value, empty), default)`. -/

theorem nullif_eq_some (a : Option α) (empty x : α) :
    nullif a (some empty) = some x ↔ a = some x ∧ x ≠ empty := by
  cases a with
  | none => simp [nullif]
  | some y =>
      by_cases same : y = empty
      · simp only [nullif, eq, same]; simp; exact fun h => h.symm
      · simp only [nullif, eq]; simp [same]; rintro rfl; exact same

/-- A value that is NULL or empty is the one that NULLIF takes away. -/
theorem nullif_eq_none (a : Option α) (empty : α) :
    nullif a (some empty) = none ↔ a = none ∨ a = some empty := by
  cases a with
  | none => simp [nullif]
  | some y => by_cases same : y = empty <;> simp [nullif, eq, same]

/-- Filled once, a column is filled. -/
theorem filled_filled (a : Option α) (empty : α) (default : Option α) :
    (nullif ((nullif a (some empty)).or default) (some empty)).or default =
      (nullif a (some empty)).or default := by
  rcases given : nullif a (some empty) with _ | x
  · rw [Option.none_or]
    rcases own : nullif default (some empty) with _ | y
    · rw [Option.none_or]
    · rw [Option.some_or, ((nullif_eq_some default empty y).mp own).1]
  · have plain : x ≠ empty := ((nullif_eq_some a empty x).mp given).2
    rw [Option.some_or, (nullif_eq_some _ empty x).mpr ⟨rfl, plain⟩, Option.some_or]

/-! Statements. -/

section Update
variable {β κ : Type} {key : β → κ}

/-- `UPDATE … SET … WHERE …`, of columns outside the key. -/
def updateWhere (t : Table key) (condition : β → Option Bool) (set : β → β)
    (same : ∀ r, key (set r) = key r) : Table key :=
  ⟨t.rows.map fun r => if Holds (condition r) then set r else r, by
    have keys : ∀ r ∈ t.rows, (key ∘ fun r => if Holds (condition r) then set r else r) r =
        key r := fun r _ => by
      by_cases held : Holds (condition r)
      · simp only [Function.comp, if_pos held, same]
      · simp only [Function.comp, if_neg held]
    rw [List.map_map, List.map_congr_left keys]
    exact t.unique⟩

@[simp] theorem updateWhere_rows (t : Table key) (condition : β → Option Bool) (set : β → β)
    (same : ∀ r, key (set r) = key r) : (updateWhere t condition set same).rows =
      t.rows.map fun r => if Holds (condition r) then set r else r := rfl

variable [DecidableEq κ]

/-- An update by a key that no row has. -/
theorem map_absent {k : κ} {rows : List β} (absent : k ∉ rows.map key) (set : β → β) :
    (rows.map fun q => if key q = k then set q else q) = rows := by
  conv_rhs => rw [← List.map_id rows]
  apply List.map_congr_left
  intro q member
  rw [if_neg fun same => absent (List.mem_map.mpr ⟨q, member, same⟩)]
  rfl

/-- A loop that updates each row it reads by that row's own key. -/
theorem foldl_modify (t : Table key) (step : Table key → β → Table key) (set : β → β)
    (own : ∀ s : Table key, ∀ r ∈ s.rows, (step s r).rows =
      s.rows.map fun q => if key q = key r then set q else q)
    (keyed : ∀ r, key (set r) = key r) :
    (t.rows.foldl step t).rows = t.rows.map set := by
  suffices loop : ∀ rest done : List β, ∀ s : Table key, (rest.map key).Nodup →
      s.rows = done.map set ++ rest → (∀ r ∈ rest, key r ∉ done.map key) →
      (rest.foldl step s).rows = (done ++ rest).map set by
    simpa using loop t.rows [] t t.unique rfl fun _ _ => List.not_mem_nil
  intro rest
  induction rest with
  | nil => intro done s _ rows _; simpa using rows
  | cons r rest ih =>
      intro done s unique rows apart
      rw [List.map_cons, List.nodup_cons] at unique
      have next : (step s r).rows = (done ++ [r]).map set ++ rest := by
        rw [own s r (by rw [rows]; simp), rows, List.map_append, List.map_cons, if_pos rfl,
          map_absent unique.1, map_absent ?_]
        · simp
        · have same : key ∘ set = key := funext keyed
          rw [List.map_map, same]
          exact apart r List.mem_cons_self
      have ends := ih (done ++ [r]) (step s r) unique.2 next fun q member => by
        rw [List.map_append, List.mem_append, List.map_singleton, List.mem_singleton]
        rintro (early | same)
        · exact apart q (List.mem_cons_of_mem _ member) early
        · exact unique.1 (List.mem_map.mpr ⟨q, member, same⟩)
      rw [List.foldl_cons, ends, List.append_assoc, List.singleton_append]

end Update

end Uta.Lib.Sql
