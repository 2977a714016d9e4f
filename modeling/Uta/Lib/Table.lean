/- Tables with a primary key: the rows in insertion order, no key twice. -/
import Mathlib.Data.List.Nodup
import Mathlib.Tactic.Common

namespace Uta.Lib

/-- Rows keyed by `key`. Uniqueness is a field, so no update can build a table
that breaks the primary key. -/
structure Table {α κ : Type} (key : α → κ) where
  rows : List α
  unique : (rows.map key).Nodup

namespace Table
variable {α κ : Type} {key : α → κ}

def empty : Table key := ⟨[], List.nodup_nil⟩

theorem ext_rows {s t : Table key} (h : s.rows = t.rows) : s = t := by
  cases s; cases t; cases h; rfl

/-- Two rows with one key are one row. -/
theorem eq_of_key (t : Table key) {r s : α} (hr : r ∈ t.rows) (hs : s ∈ t.rows)
    (h : key r = key s) : r = s :=
  List.inj_on_of_nodup_map t.unique hr hs h

/-- INSERT of a row whose key is new. -/
def insert (t : Table key) (r : α) (fresh : key r ∉ t.rows.map key) : Table key :=
  ⟨t.rows ++ [r], by
    rw [List.map_append, List.map_singleton]
    exact List.nodup_append'.mpr ⟨t.unique, List.nodup_singleton _, by simpa using fresh⟩⟩

@[simp] theorem insert_rows (t : Table key) (r : α) (fresh : key r ∉ t.rows.map key) :
    (t.insert r fresh).rows = t.rows ++ [r] := rfl

section Keys
variable [DecidableEq κ]

def find? (t : Table key) (k : κ) : Option α := t.rows.find? (fun r => key r = k)

theorem map_key_update (k : κ) (f : α → α) (same : ∀ r, key (f r) = key r) (l : List α) :
    (l.map (fun r => if key r = k then f r else r)).map key = l.map key := by
  rw [List.map_map]
  apply List.map_congr_left
  intro r _
  by_cases hk : key r = k <;> simp [Function.comp, hk, same]

/-- UPDATE of the row with key `k` by a function that does not touch the key. -/
def modify (t : Table key) (k : κ) (f : α → α) (same : ∀ r, key (f r) = key r) : Table key :=
  ⟨t.rows.map (fun r => if key r = k then f r else r), by
    rw [map_key_update k f same]
    exact t.unique⟩

@[simp] theorem modify_rows (t : Table key) (k : κ) (f : α → α) (same : ∀ r, key (f r) = key r) :
    (t.modify k f same).rows = t.rows.map (fun r => if key r = k then f r else r) := rfl

theorem find?_mem {t : Table key} {r : α} (h : r ∈ t.rows) : t.find? (key r) = some r := by
  rcases hf : t.find? (key r) with _ | s
  · have missing := List.find?_eq_none.mp hf r h
    simp at missing
  · have same : key s = key r := by simpa using List.find?_some hf
    rw [t.eq_of_key (List.mem_of_find?_eq_some hf) h same]

theorem find?_some {t : Table key} {k : κ} {r : α} :
    t.find? k = some r ↔ r ∈ t.rows ∧ key r = k :=
  ⟨fun h => ⟨List.mem_of_find?_eq_some h, by simpa using List.find?_some h⟩,
    fun ⟨member, same⟩ => same ▸ find?_mem member⟩

theorem find?_none {t : Table key} {k : κ} : t.find? k = none ↔ k ∉ t.rows.map key := by
  simp [find?, List.find?_eq_none]

theorem find?_insert (t : Table key) (r : α) (fresh : key r ∉ t.rows.map key) (k : κ) :
    (t.insert r fresh).find? k = if key r = k then some r else t.find? k := by
  by_cases hk : key r = k
  · rw [if_pos hk]
    exact find?_some.mpr ⟨by simp, hk⟩
  · simp [find?, List.find?_append, hk]

theorem find?_modify (t : Table key) (k : κ) (f : α → α) (same : ∀ r, key (f r) = key r) (j : κ) :
    (t.modify k f same).find? j = if j = k then (t.find? k).map f else t.find? j := by
  unfold find?
  rw [modify_rows, List.find?_map]
  have pred : ((fun r => decide (key r = j)) ∘ fun r => if key r = k then f r else r) =
      fun r => decide (key r = j) := by
    funext r
    by_cases hk : key r = k <;> simp [Function.comp, hk, same]
  rw [pred]
  by_cases hj : j = k
  · subst hj
    rw [if_pos rfl]
    rcases hf : t.rows.find? (fun r => decide (key r = j)) with _ | r
    · rfl
    · have hr : key r = j := by simpa using List.find?_some hf
      simp [hr]
  · rw [if_neg hj]
    rcases hf : t.rows.find? (fun r => decide (key r = j)) with _ | r
    · rfl
    · have hr : key r = j := by simpa using List.find?_some hf
      simp [hr, hj]

theorem mem_modify {t : Table key} {k : κ} {f : α → α} {same : ∀ r, key (f r) = key r} {s : α} :
    s ∈ (t.modify k f same).rows ↔
      (s ∈ t.rows ∧ key s ≠ k) ∨ ∃ r ∈ t.rows, key r = k ∧ f r = s := by
  simp only [modify_rows, List.mem_map]
  constructor
  · rintro ⟨r, hr, rfl⟩
    by_cases hk : key r = k
    · rw [if_pos hk]; exact .inr ⟨r, hr, hk, rfl⟩
    · rw [if_neg hk]; exact .inl ⟨hr, hk⟩
  · rintro (⟨hs, hk⟩ | ⟨r, hr, hk, rfl⟩)
    · exact ⟨s, hs, if_neg hk⟩
    · exact ⟨r, hr, if_pos hk⟩

theorem modify_modify (t : Table key) (k : κ) (f g : α → α) (hf : ∀ r, key (f r) = key r)
    (hg : ∀ r, key (g r) = key r) (hgf : ∀ r, key (g (f r)) = key r) :
    (t.modify k f hf).modify k g hg = t.modify k (fun r => g (f r)) hgf := by
  apply ext_rows
  simp only [modify_rows, List.map_map]
  apply List.map_congr_left
  intro r _
  by_cases hk : key r = k <;> simp [Function.comp, hk, hf]

/-- An UPDATE of another row commutes with an INSERT. -/
theorem modify_insert (t : Table key) (k : κ) (f : α → α) (same : ∀ r, key (f r) = key r) (r : α)
    (fresh : key r ∉ t.rows.map key) (fresh' : key r ∉ (t.modify k f same).rows.map key)
    (ne : key r ≠ k) : (t.insert r fresh).modify k f same = (t.modify k f same).insert r fresh' := by
  apply ext_rows
  simp [ne]

/-- An UPDATE that would not change its row changes nothing. -/
theorem modify_id (t : Table key) (k : κ) (f : α → α) (same : ∀ r, key (f r) = key r)
    (fixed : ∀ r, t.find? k = some r → f r = r) : t.modify k f same = t := by
  apply ext_rows
  rw [modify_rows]
  conv_rhs => rw [← List.map_id t.rows]
  apply List.map_congr_left
  intro r member
  by_cases hk : key r = k
  · rw [if_pos hk]; exact fixed r (find?_some.mpr ⟨member, hk⟩)
  · rw [if_neg hk]; rfl

theorem keys_modify (t : Table key) (k : κ) (f : α → α) (same : ∀ r, key (f r) = key r) :
    (t.modify k f same).rows.map key = t.rows.map key := map_key_update k f same t.rows

end Keys
end Table
end Uta.Lib
