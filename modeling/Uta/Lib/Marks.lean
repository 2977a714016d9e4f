/- Marks by name: what stays of a log of measurements when every name keeps the
greatest of its values. -/
import Mathlib.Data.List.AList
import Mathlib.Data.List.MinMax

namespace Uta.Lib.Marks

variable {α β : Type}

/-- A dictionary of values. -/
abbrev Named (α : Type) := AList fun _ : String => α

/-! The entries that have a value. -/

def keep (f : β → Option α) (e : (_ : String) × β) : Option ((_ : String) × α) :=
  (f e.2).map (Sigma.mk e.1)

theorem filterMap_none {f : β → Option α} {e : (_ : String) × β} (value : f e.2 = none)
    (es : List ((_ : String) × β)) : (e :: es).filterMap (keep f) = es.filterMap (keep f) := by
  apply List.filterMap_cons_none
  rw [keep, value, Option.map_none]

theorem filterMap_some {f : β → Option α} {e : (_ : String) × β} {v : α} (value : f e.2 = some v)
    (es : List ((_ : String) × β)) :
    (e :: es).filterMap (keep f) = Sigma.mk e.1 v :: es.filterMap (keep f) := by
  apply List.filterMap_cons_some
  rw [keep, value, Option.map_some]

theorem keys_filterMap_keep (f : β → Option α) (es : List ((_ : String) × β)) :
    (es.filterMap (keep f)).keys.Sublist es.keys := by
  induction es with
  | nil => exact List.Sublist.slnil
  | cons e es ih =>
      cases value : f e.2 with
      | none =>
          rw [filterMap_none value]
          exact ih.cons e.1
      | some v =>
          rw [filterMap_some value]
          exact ih.cons_cons e.1

def select (f : β → Option α) (named : Named β) : Named α :=
  ⟨named.entries.filterMap (keep f),
    List.Nodup.sublist (keys_filterMap_keep f named.entries) named.nodupKeys⟩

theorem dlookup_filterMap_keep (f : β → Option α) (key : String) {es : List ((_ : String) × β)}
    (nodup : es.NodupKeys) :
    (es.filterMap (keep f)).dlookup key = (es.dlookup key).bind f := by
  induction es with
  | nil => rfl
  | cons e es ih =>
      obtain ⟨name, value⟩ := e
      obtain ⟨fresh, rest⟩ := List.nodupKeys_cons.mp nodup
      have later := ih rest
      by_cases own : name = key
      · subst own
        have gone : es.dlookup name = none := List.dlookup_eq_none.mpr fresh
        rw [List.dlookup_cons_eq, Option.bind_some]
        cases held : f value with
        | none =>
            rw [filterMap_none held, later, gone]
            rfl
        | some v => rw [filterMap_some held, List.dlookup_cons_eq]
      · rw [List.dlookup_cons_ne es ⟨name, value⟩ (Ne.symm own)]
        cases held : f value with
        | none => rw [filterMap_none held, later]
        | some v =>
            rw [filterMap_some held]
            exact (List.dlookup_cons_ne _ (Sigma.mk name v) (Ne.symm own)).trans later

@[simp] theorem lookup_select (f : β → Option α) (named : Named β) (key : String) :
    (select f named).lookup key = (named.lookup key).bind f :=
  dlookup_filterMap_keep f key named.nodupKeys

/-! The greatest value of a name. -/

/-- The value under a name, or the least one. -/
def mark (named : Named α) (key : String) : WithBot α :=
  match named.lookup key with
  | none => ⊥
  | some v => v

theorem mark_some {named : Named α} {key : String} {v : α} (held : named.lookup key = some v) :
    mark named key = v := by
  rw [mark, held]

theorem mark_none {named : Named α} {key : String} (absent : named.lookup key = none) :
    mark named key = ⊥ := by
  rw [mark, absent]

theorem mark_congr {first second : Named α} {key : String}
    (same : first.lookup key = second.lookup key) : mark first key = mark second key := by
  rw [mark, same, mark]

section Order
variable [LinearOrder α]

def raise (named : Named α) (e : (_ : String) × α) : Named α :=
  named.insert e.1 (max e.2 ((named.lookup e.1).getD e.2))

theorem mark_raise_own (named : Named α) (e : (_ : String) × α) :
    mark (raise named e) e.1 = max (mark named e.1) e.2 := by
  have raised : (raise named e).lookup e.1 = some (max e.2 ((named.lookup e.1).getD e.2)) :=
    AList.lookup_insert named
  rw [mark_some raised]
  cases held : named.lookup e.1 with
  | none => simp [mark_none held]
  | some v => simp [mark_some held, max_comm]

theorem mark_raise_ne (named : Named α) {e : (_ : String) × α} {key : String} (ne : e.1 ≠ key) :
    mark (raise named e) key = mark named key :=
  mark_congr (AList.lookup_insert_ne ne.symm)

/-- Every name keeps the greater of its two values. -/
theorem mark_foldl_raise (named : Named α) {es : List ((_ : String) × α)} (nodup : es.NodupKeys)
    (key : String) : mark (es.foldl raise named) key = max (mark named key) (mark ⟨es, nodup⟩ key) := by
  induction es generalizing named with
  | nil => exact (max_eq_left bot_le).symm
  | cons e es ih =>
      obtain ⟨name, value⟩ := e
      obtain ⟨fresh, rest⟩ := List.nodupKeys_cons.mp nodup
      rw [List.foldl_cons, ih (raise named ⟨name, value⟩) rest]
      by_cases own : name = key
      · subst own
        have gone : mark ⟨es, rest⟩ name = ⊥ := mark_none (List.dlookup_eq_none.mpr fresh)
        have here : mark ⟨⟨name, value⟩ :: es, nodup⟩ name = value :=
          mark_some (List.dlookup_cons_eq es name value)
        rw [gone, here, max_eq_left bot_le]
        exact mark_raise_own named ⟨name, value⟩
      · have here : mark ⟨⟨name, value⟩ :: es, nodup⟩ key = mark ⟨es, rest⟩ key :=
          mark_congr (List.dlookup_cons_ne es ⟨name, value⟩ (Ne.symm own))
        rw [here, mark_raise_ne named own]

end Order

end Uta.Lib.Marks
