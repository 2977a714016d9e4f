/- Tables in which at most one row of each group is active. -/
import Uta.Lib.Table

namespace Uta.Lib.Table
variable {α κ γ : Type} {key : α → κ} (group : α → γ) (Active : α → Prop)

/-- At most one row of each group is active. -/
def Exclusive (t : Table key) : Prop :=
  ∀ r ∈ t.rows, ∀ s ∈ t.rows, group r = group s → Active r → Active s → r = s

/-- A row other than `r` is active in its group. -/
def Contended (t : Table key) (r : α) : Prop :=
  ∃ s ∈ t.rows, group s = group r ∧ Active s ∧ key s ≠ key r

variable {group Active}

theorem exclusive_insert_idle {t : Table key} {r : α} {fresh : key r ∉ t.rows.map key}
    (alone : t.Exclusive group Active) (idle : ¬ Active r) :
    (t.insert r fresh).Exclusive group Active := by
  have old : ∀ x ∈ (t.insert r fresh).rows, Active x → x ∈ t.rows := by
    intro x member active
    rcases List.mem_append.mp member with before | new
    · exact before
    · rw [List.mem_singleton.mp new] at active
      exact absurd active idle
  intro x hx y hy same activeX activeY
  exact alone x (old x hx activeX) y (old y hy activeY) same activeX activeY

section Keys
variable [DecidableEq κ] {t : Table key} {k : κ} {f : α → α} (same : ∀ r, key (f r) = key r)

/-- An update that leaves its row idle keeps the groups exclusive. -/
theorem exclusive_modify_idle (alone : t.Exclusive group Active) (idle : ∀ r, ¬ Active (f r)) :
    (t.modify k f same).Exclusive group Active := by
  have old : ∀ x ∈ (t.modify k f same).rows, Active x → x ∈ t.rows := by
    intro x member active
    rcases mem_modify.mp member with ⟨before, _⟩ | ⟨r, _, _, rfl⟩
    · exact before
    · exact absurd active (idle r)
  intro x hx y hy grouped activeX activeY
  exact alone x (old x hx activeX) y (old y hy activeY) grouped activeX activeY

/-- An update that makes its row active keeps the groups exclusive exactly when
no other row of the group is active. -/
theorem exclusive_modify_iff (alone : t.Exclusive group Active)
    (grouped : ∀ r, group (f r) = group r) (active : ∀ r, Active (f r)) :
    (t.modify k f same).Exclusive group Active ↔
      ∀ r ∈ t.find? k, ¬ t.Contended group Active r := by
  constructor
  · rintro after r found ⟨s, member, sameGroup, activeS, other⟩
    obtain ⟨present, rfl⟩ := find?_some.mp found
    have kept : s ∈ (t.modify (key r) f same).rows := mem_modify.mpr (.inl ⟨member, other⟩)
    have stored : f r ∈ (t.modify (key r) f same).rows :=
      mem_modify.mpr (.inr ⟨r, present, rfl, rfl⟩)
    have equal : s = f r :=
      after s kept (f r) stored (sameGroup.trans (grouped r).symm) activeS (active r)
    exact other (by rw [equal, same])
  · intro free x hx y hy sameGroup activeX activeY
    have updated : ∀ r ∈ t.rows, key r = k → ∀ s ∈ t.rows, key s ≠ k → group s = group (f r) →
        ¬ Active s := by
      intro r present hit s member miss shared activeS
      refine free r (find?_some.mpr ⟨present, hit⟩) ⟨s, member, ?_, activeS, ?_⟩
      · rw [shared, grouped]
      · rw [hit]
        exact miss
    rcases mem_modify.mp hx with ⟨beforeX, missX⟩ | ⟨r, presentR, hitR, rfl⟩ <;>
      rcases mem_modify.mp hy with ⟨beforeY, missY⟩ | ⟨s, presentS, hitS, rfl⟩
    · exact alone x beforeX y beforeY sameGroup activeX activeY
    · exact absurd activeX (updated s presentS hitS x beforeX missX sameGroup)
    · exact absurd activeY (updated r presentR hitR y beforeY missY sameGroup.symm)
    · rw [t.eq_of_key presentR presentS (hitR.trans hitS.symm)]

end Keys
end Uta.Lib.Table
