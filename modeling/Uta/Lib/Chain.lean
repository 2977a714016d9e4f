/- Books whose executions form chains: in each slot the executions are numbered
from 0, each one superseding the one before it, up to a bound. -/
import Uta.Lib.Book
import Mathlib.Data.Int.Order.Basic
import Mathlib.Data.Int.Interval
import Mathlib.Data.Nat.Find

namespace Uta.Lib.Chain

variable {κ ι ε σ : Type} [DecidableEq κ] (slot : ι → σ) (ordinal : ι → ℤ) (bound : ℤ)

/-- One step of a book of chains. -/
inductive Step (retryable : ε → Prop) : Book.Pages κ ι ε → Book.Pages κ ι ε → Prop
  | idle (b) : Step retryable b b
  | close {b : Book.Pages κ ι ε} {k : κ} {e : Book.Entry κ ι ε} (v : ε) : b k = some e →
      e.verdict = none → Step retryable b (Function.update b k (some { e with verdict := some v }))
  | start {b : Book.Pages κ ι ε} {k : κ} (i : ι) : b k = none → ordinal i = 0 →
      (∀ j e, b j = some e → slot e.identity ≠ slot i) →
      Step retryable b (Function.update b k (some ⟨i, none, none⟩))
  | supersede {b : Book.Pages κ ι ε} {old new : κ} {e : Book.Entry κ ι ε} (v : ε) (i : ι) :
      b old = some e → b new = none → retryable v → (e.verdict = none ∨ e.verdict = some v) →
      e.successor = none → slot i = slot e.identity → ordinal i = ordinal e.identity + 1 →
      ordinal e.identity < bound → Step retryable b (Function.update
        (Function.update b old (some ⟨e.identity, some v, some new⟩)) new (some ⟨i, none, none⟩))

/-- The chains of a book. -/
structure Chained (retryable : ε → Prop) (b : Book.Pages κ ι ε) : Prop where
  range : ∀ k e, b k = some e → 0 ≤ ordinal e.identity ∧ ordinal e.identity ≤ bound
  single : ∀ j k e f, b j = some e → b k = some f → slot e.identity = slot f.identity →
    ordinal e.identity = ordinal f.identity → j = k
  /-- An execution that is not the first has superseded the one before it. -/
  preceded : ∀ k e, b k = some e → 0 < ordinal e.identity → ∃ j f, b j = some f ∧
    slot f.identity = slot e.identity ∧ ordinal f.identity + 1 = ordinal e.identity ∧
    f.successor = some k ∧ ∃ v, f.verdict = some v ∧ retryable v
  /-- A superseded execution is followed by another of its slot. -/
  followed : ∀ k e, b k = some e → e.successor ≠ none → ∃ j f, b j = some f ∧
    slot f.identity = slot e.identity ∧ ordinal f.identity = ordinal e.identity + 1

variable {slot ordinal bound} {retryable : ε → Prop} {b c : Book.Pages κ ι ε}

/-- The steps of a chain are steps of the book. -/
theorem Step.book {blank : κ → Prop} (h : Step slot ordinal bound retryable b c) :
    Book.Step retryable blank b c := by
  cases h with
  | idle => exact .idle b
  | close v found opened => exact .close v found opened
  | start i absent _ _ => exact .start i absent
  | supersede v i found absent retry verdict unlinked _ _ _ =>
      refine .supersede v i found absent retry verdict ?_
      intro s hs
      rw [unlinked] at hs
      cases hs

/-- Closing an execution keeps the chains. -/
theorem Chained.update (h : Chained slot ordinal bound retryable b) {k : κ} {e e' : Book.Entry κ ι ε}
    (found : b k = some e) (identity : e'.identity = e.identity)
    (verdict : ∀ v, e.verdict = some v → e'.verdict = some v)
    (successor : e'.successor = e.successor) :
    Chained slot ordinal bound retryable (Function.update b k (some e')) := by
  have back : ∀ j f, Function.update b k (some e') j = some f → ∃ g, b j = some g ∧
      f.identity = g.identity ∧ f.successor = g.successor := by
    intro j f hf
    by_cases same : j = k
    · subst same
      rw [Function.update_self] at hf
      cases hf
      exact ⟨e, found, identity, successor⟩
    · rw [Function.update_of_ne same] at hf
      exact ⟨f, hf, rfl, rfl⟩
  have forth : ∀ j g, b j = some g → ∃ f, Function.update b k (some e') j = some f ∧
      f.identity = g.identity ∧ f.successor = g.successor ∧
      ∀ v, g.verdict = some v → f.verdict = some v := by
    intro j g hg
    by_cases same : j = k
    · subst same
      obtain rfl : e = g := Option.some.inj (found.symm.trans hg)
      exact ⟨e', Function.update_self .., identity, successor, verdict⟩
    · exact ⟨g, by rw [Function.update_of_ne same]; exact hg, rfl, rfl, fun _ hv => hv⟩
  constructor
  · intro j f hf
    obtain ⟨g, hg, id, _⟩ := back j f hf
    rw [id]
    exact h.range j g hg
  · intro i j f g hf hg slots ordinals
    obtain ⟨f', hf', idf, _⟩ := back i f hf
    obtain ⟨g', hg', idg, _⟩ := back j g hg
    rw [idf, idg] at slots ordinals
    exact h.single i j f' g' hf' hg' slots ordinals
  · intro j f hf positive
    obtain ⟨g, hg, id, _⟩ := back j f hf
    rw [id] at positive ⊢
    obtain ⟨i, p, hp, slots, ordinals, link, v, closed, retry⟩ := h.preceded j g hg positive
    obtain ⟨q, hq, idq, succ, verdicts⟩ := forth i p hp
    exact ⟨i, q, hq, idq ▸ slots, idq ▸ ordinals, succ.trans link, v, verdicts v closed, retry⟩
  · intro j f hf linked
    obtain ⟨g, hg, id, succ⟩ := back j f hf
    rw [succ] at linked
    rw [id]
    obtain ⟨i, p, hp, slots, ordinals⟩ := h.followed j g hg linked
    obtain ⟨q, hq, idq, _⟩ := forth i p hp
    exact ⟨i, q, hq, idq ▸ slots, idq ▸ ordinals⟩

/-- The execution after which nothing in the slot comes is the only one a step
may supersede; so a chain grows at its end. -/
theorem Chained.supersede (h : Chained slot ordinal bound retryable b) {old new : κ}
    {e : Book.Entry κ ι ε} {v : ε} {i : ι} (found : b old = some e) (absent : b new = none)
    (retry : retryable v) (unlinked : e.successor = none) (slots : slot i = slot e.identity)
    (ordinals : ordinal i = ordinal e.identity + 1) (below : ordinal e.identity < bound) :
    Chained slot ordinal bound retryable (Function.update
      (Function.update b old (some ⟨e.identity, some v, some new⟩)) new (some ⟨i, none, none⟩)) := by
  have ne : old ≠ new := by rintro rfl; rw [absent] at found; cases found
  have atOld : Function.update (Function.update b old (some ⟨e.identity, some v, some new⟩)) new
      (some ⟨i, none, none⟩) old = some ⟨e.identity, some v, some new⟩ := by
    rw [Function.update_of_ne ne, Function.update_self]
  have others : ∀ j, j ≠ old → j ≠ new → Function.update
      (Function.update b old (some ⟨e.identity, some v, some new⟩)) new (some ⟨i, none, none⟩) j
        = b j := by
    intro j hold hnew
    rw [Function.update_of_ne hnew, Function.update_of_ne hold]
  -- Every page is the new one, the superseded one or an old one.
  have pages : ∀ j f, Function.update (Function.update b old
      (some ⟨e.identity, some v, some new⟩)) new (some ⟨i, none, none⟩) j = some f →
      (j = new ∧ f = ⟨i, none, none⟩) ∨ (j = old ∧ f = ⟨e.identity, some v, some new⟩) ∨
      (j ≠ old ∧ j ≠ new ∧ b j = some f) := by
    intro j f hf
    by_cases hnew : j = new
    · subst hnew
      rw [Function.update_self] at hf
      exact .inl ⟨rfl, (Option.some.inj hf).symm⟩
    by_cases hold : j = old
    · subst hold
      rw [atOld] at hf
      exact .inr (.inl ⟨rfl, (Option.some.inj hf).symm⟩)
    · rw [others j hold hnew] at hf
      exact .inr (.inr ⟨hold, hnew, hf⟩)
  -- The new ordinal is free: its predecessor would be linked.
  have free : ∀ j f, b j = some f → slot f.identity = slot e.identity →
      ordinal f.identity ≠ ordinal e.identity + 1 := by
    intro j f hf same next
    have := (h.range old e found).1
    obtain ⟨k, p, hp, slotp, ordp, link, _⟩ := h.preceded j f hf (by omega)
    obtain rfl : k = old := h.single k old p e hp found (slotp.trans same) (by omega)
    obtain rfl : p = e := Option.some.inj (hp.symm.trans found)
    rw [unlinked] at link
    cases link
  have forth : ∀ j f, b j = some f → ∃ g, Function.update (Function.update b old
      (some ⟨e.identity, some v, some new⟩)) new (some ⟨i, none, none⟩) j = some g ∧
      g.identity = f.identity := by
    intro j f hf
    have hnew : j ≠ new := by rintro rfl; rw [absent] at hf; cases hf
    by_cases hold : j = old
    · subst hold
      obtain rfl : e = f := Option.some.inj (found.symm.trans hf)
      exact ⟨_, atOld, rfl⟩
    · exact ⟨f, by rw [others j hold hnew]; exact hf, rfl⟩
  have source : ∀ j f, Function.update (Function.update b old
      (some ⟨e.identity, some v, some new⟩)) new (some ⟨i, none, none⟩) j = some f → j ≠ new →
      ∃ g, b j = some g ∧ g.identity = f.identity := by
    intro j f hf hnew
    rcases pages j f hf with ⟨rfl, _⟩ | ⟨rfl, rfl⟩ | ⟨_, _, hb⟩
    · exact absurd rfl hnew
    · exact ⟨e, found, rfl⟩
    · exact ⟨f, hb, rfl⟩
  constructor
  · intro j f hf
    rcases pages j f hf with ⟨_, rfl⟩ | ⟨_, rfl⟩ | ⟨_, _, hb⟩
    · have := (h.range old e found).1
      exact ⟨by change 0 ≤ ordinal i; omega, by change ordinal i ≤ bound; omega⟩
    · exact h.range old e found
    · exact h.range j f hb
  · intro j k f g hf hg slotfg ordfg
    by_cases hj : j = new <;> by_cases hk : k = new
    · rw [hj, hk]
    · obtain ⟨g', hg', idg⟩ := source k g hg hk
      rcases pages j f hf with ⟨_, rfl⟩ | ⟨rfl, _⟩ | ⟨_, hn, _⟩
      · refine absurd ?_ (free k g' hg' (by rw [idg, ← slotfg]; exact slots))
        rw [idg, ← ordfg]
        exact ordinals
      · exact absurd hj ne
      · exact absurd hj hn
    · obtain ⟨f', hf', idf⟩ := source j f hf hj
      rcases pages k g hg with ⟨_, rfl⟩ | ⟨rfl, _⟩ | ⟨_, hn, _⟩
      · refine absurd ?_ (free j f' hf' (by rw [idf, slotfg]; exact slots))
        rw [idf, ordfg]
        exact ordinals
      · exact absurd hk ne
      · exact absurd hk hn
    · obtain ⟨f', hf', idf⟩ := source j f hf hj
      obtain ⟨g', hg', idg⟩ := source k g hg hk
      exact h.single j k f' g' hf' hg' (by rw [idf, idg]; exact slotfg) (by rw [idf, idg]; exact ordfg)
  · intro j f hf positive
    by_cases hnew : j = new
    · rcases pages j f hf with ⟨_, rfl⟩ | ⟨hold, _⟩ | ⟨_, hn, _⟩
      · exact ⟨old, _, atOld, slots.symm, ordinals.symm, hnew ▸ rfl, v, rfl, retry⟩
      · exact absurd (hold.symm.trans hnew) ne
      · exact absurd hnew hn
    · obtain ⟨f', hf', idf⟩ := source j f hf hnew
      rw [← idf] at positive ⊢
      obtain ⟨k, p, hp, slotp, ordp, link, w, closed, retry'⟩ := h.preceded j f' hf' positive
      have notOld : k ≠ old := by
        rintro rfl
        obtain rfl : p = e := Option.some.inj (hp.symm.trans found)
        rw [unlinked] at link
        cases link
      have notNew : k ≠ new := by rintro rfl; rw [absent] at hp; cases hp
      exact ⟨k, p, by rw [others k notOld notNew]; exact hp, slotp, ordp, link, w, closed, retry'⟩
  · intro j f hf linked
    rcases pages j f hf with ⟨_, rfl⟩ | ⟨_, rfl⟩ | ⟨_, _, hb⟩
    · exact absurd rfl linked
    · exact ⟨new, _, Function.update_self .., slots, ordinals⟩
    · obtain ⟨k, p, hp, slotp, ordp⟩ := h.followed j f hb linked
      obtain ⟨g, hg, idg⟩ := forth k p hp
      exact ⟨k, g, hg, idg ▸ slotp, idg ▸ ordp⟩

theorem Chained.start (h : Chained slot ordinal bound retryable b) {k : κ} {i : ι}
    (absent : b k = none) (first : ordinal i = 0) (room : 0 ≤ bound)
    (empty : ∀ j e, b j = some e → slot e.identity ≠ slot i) :
    Chained slot ordinal bound retryable (Function.update b k (some ⟨i, none, none⟩)) := by
  have pages : ∀ j f, Function.update b k (some (⟨i, none, none⟩ : Book.Entry κ ι ε)) j = some f →
      (j = k ∧ f = ⟨i, none, none⟩) ∨ (j ≠ k ∧ b j = some f) := by
    intro j f hf
    by_cases same : j = k
    · subst same
      rw [Function.update_self] at hf
      exact .inl ⟨rfl, (Option.some.inj hf).symm⟩
    · rw [Function.update_of_ne same] at hf
      exact .inr ⟨same, hf⟩
  have keeps : ∀ j f, b j = some f →
      Function.update b k (some (⟨i, none, none⟩ : Book.Entry κ ι ε)) j = some f := by
    intro j f hf
    have ne : j ≠ k := by rintro rfl; rw [absent] at hf; cases hf
    rw [Function.update_of_ne ne]
    exact hf
  constructor
  · intro j f hf
    rcases pages j f hf with ⟨_, rfl⟩ | ⟨_, hb⟩
    · exact ⟨by change 0 ≤ ordinal i; omega, by change ordinal i ≤ bound; omega⟩
    · exact h.range j f hb
  · intro j l f g hf hg slots ordinals
    rcases pages j f hf with ⟨rfl, rfl⟩ | ⟨_, hbf⟩ <;> rcases pages l g hg with ⟨rfl, rfl⟩ | ⟨_, hbg⟩
    · rfl
    · exact absurd slots.symm (empty l g hbg)
    · exact absurd slots (empty j f hbf)
    · exact h.single j l f g hbf hbg slots ordinals
  · intro j f hf positive
    rcases pages j f hf with ⟨rfl, rfl⟩ | ⟨_, hb⟩
    · have : ordinal i > 0 := positive
      omega
    · obtain ⟨l, p, hp, rest⟩ := h.preceded j f hb positive
      exact ⟨l, p, keeps l p hp, rest⟩
  · intro j f hf linked
    rcases pages j f hf with ⟨rfl, rfl⟩ | ⟨_, hb⟩
    · exact absurd rfl linked
    · obtain ⟨l, p, hp, rest⟩ := h.followed j f hb linked
      exact ⟨l, p, keeps l p hp, rest⟩

theorem Step.chained (step : Step slot ordinal bound retryable b c) (room : 0 ≤ bound)
    (h : Chained slot ordinal bound retryable b) : Chained slot ordinal bound retryable c := by
  cases step with
  | idle => exact h
  | @close k e v found opened =>
      refine h.update found rfl ?_ rfl
      intro w closed
      rw [opened] at closed
      cases closed
  | start i absent first empty => exact h.start absent first room empty
  | supersede v i found absent retry _ unlinked slots ordinals below =>
      exact h.supersede found absent retry unlinked slots ordinals below

omit [DecidableEq κ] in
theorem chained_empty : Chained slot ordinal bound retryable (fun _ => none : Book.Pages κ ι ε) :=
  ⟨fun _ _ h => (nomatch h), fun _ _ _ _ h => (nomatch h), fun _ _ h => (nomatch h),
    fun _ _ h => (nomatch h)⟩

section Reading
omit [DecidableEq κ]

/-- Some execution of the slot `s` has the ordinal `n`. -/
def Occupied (slot : ι → σ) (ordinal : ι → ℤ) (b : Book.Pages κ ι ε) (s : σ) (n : ℤ) : Prop :=
  ∃ k e, b k = some e ∧ slot e.identity = s ∧ ordinal e.identity = n

/-- The ordinals in use are closed downwards. -/
theorem Chained.down (h : Chained slot ordinal bound retryable b) {s : σ} (m : ℕ)
    (used : Occupied slot ordinal b s m) {l : ℕ} (below : l ≤ m) : Occupied slot ordinal b s l := by
  induction m with
  | zero =>
      obtain rfl : l = 0 := by omega
      exact used
  | succ m ih =>
      rcases Nat.lt_or_ge l (m + 1) with lower | same
      · obtain ⟨k, e, found, slots, ord⟩ := used
        obtain ⟨j, f, hf, slotf, ordf, _⟩ := h.preceded k e found (by omega)
        exact ih ⟨j, f, hf, slotf.trans slots, by omega⟩ (by omega)
      · obtain rfl : l = m + 1 := by omega
        exact used

/-- Nothing in its slot comes after an execution that has not been superseded. -/
theorem Chained.last (h : Chained slot ordinal bound retryable b) {k : κ} {e : Book.Entry κ ι ε}
    (found : b k = some e) (unlinked : e.successor = none) {n : ℤ}
    (used : Occupied slot ordinal b (slot e.identity) n) : n ≤ ordinal e.identity := by
  obtain ⟨j, f, hf, slots, rfl⟩ := used
  by_contra after_
  have low := (h.range k e found).1
  have used' : Occupied slot ordinal b (slot e.identity) ((ordinal f.identity).toNat : ℤ) :=
    ⟨j, f, hf, slots, by omega⟩
  -- The ordinal after `e` is in use, so `e` has been superseded.
  obtain ⟨i, g, hg, slotg, ordg⟩ := h.down _ used'
    (l := (ordinal e.identity + 1).toNat) (by omega)
  obtain ⟨l, p, hp, slotp, ordp, link, _⟩ := h.preceded i g hg (by omega)
  obtain rfl : l = k := h.single l k p e hp found (slotp.trans slotg) (by omega)
  obtain rfl : p = e := Option.some.inj (hp.symm.trans found)
  rw [unlinked] at link
  cases link

/-- The last execution of a slot has not been superseded. -/
theorem Chained.unlinked (h : Chained slot ordinal bound retryable b) {k : κ}
    {e : Book.Entry κ ι ε} (found : b k = some e)
    (last : ∀ n, Occupied slot ordinal b (slot e.identity) n → n ≤ ordinal e.identity) :
    e.successor = none := by
  by_contra linked
  obtain ⟨j, f, hf, slots, ord⟩ := h.followed k e found linked
  have := last _ ⟨j, f, hf, slots, rfl⟩
  omega

/-- The ordinals of a slot are an initial segment: `0` up to some `n`. -/
theorem Chained.initial (h : Chained slot ordinal bound retryable b) (s : σ) : ∃ n : ℕ,
    (n : ℤ) ≤ max (bound + 1) 0 ∧ ∀ o, Occupied slot ordinal b s o ↔ 0 ≤ o ∧ o < n := by
  classical
  have bounded : ∃ n : ℕ, ¬ Occupied slot ordinal b s n := by
    refine ⟨(bound + 1).toNat, ?_⟩
    rintro ⟨k, e, found, _, ord⟩
    have := h.range k e found
    omega
  refine ⟨Nat.find bounded, ?_, fun o => ⟨?_, ?_⟩⟩
  · have least : Nat.find bounded ≤ (bound + 1).toNat := by
      apply Nat.find_min'
      rintro ⟨k, e, found, _, ord⟩
      have := h.range k e found
      omega
    omega
  · rintro ⟨k, e, found, slots, rfl⟩
    have range := h.range k e found
    refine ⟨range.1, ?_⟩
    by_contra above
    obtain ⟨m, hm⟩ := Int.eq_ofNat_of_zero_le range.1
    exact Nat.find_spec bounded (h.down m ⟨k, e, found, slots, hm⟩ (by omega))
  · rintro ⟨low, high⟩
    obtain ⟨m, rfl⟩ := Int.eq_ofNat_of_zero_le low
    exact not_not.mp (Nat.find_min bounded (by exact_mod_cast high))

end Reading

theorem Step.kept (step : Step slot ordinal bound retryable b c) {k : κ} {e : Book.Entry κ ι ε}
    (found : b k = some e) : ∃ f, c k = some f ∧ f.identity = e.identity := by
  have grown : Book.Step retryable (fun _ => True) b c := step.book
  obtain ⟨f, hf, same, _⟩ := grown.extends k e found
  exact ⟨f, hf, same⟩

/-- A step keeps every ordinal in use. -/
theorem Step.occupied (step : Step slot ordinal bound retryable b c) {s : σ} {n : ℤ}
    (used : Occupied slot ordinal b s n) : Occupied slot ordinal c s n := by
  obtain ⟨k, e, found, slots, ord⟩ := used
  obtain ⟨f, hf, same⟩ := step.kept found
  exact ⟨k, f, hf, same ▸ slots, same ▸ ord⟩

/-- A list that increases within `0` to `n` has at most `n + 1` elements. -/
theorem length_le_of_increasing {α : Type} {l : List α} {f : α → ℤ} {n : ℕ}
    (increasing : l.Pairwise (f · < f ·)) (range : ∀ a ∈ l, 0 ≤ f a ∧ f a ≤ n) :
    l.length ≤ n + 1 := by
  have distinct : (l.map f).Nodup :=
    List.pairwise_map.mpr (increasing.imp fun less => ne_of_lt less)
  have within : (l.map f).toFinset ⊆ Finset.Icc 0 (n : ℤ) := by
    intro o member
    obtain ⟨a, ha, rfl⟩ := List.mem_map.mp (List.mem_toFinset.mp member)
    exact Finset.mem_Icc.mpr (range a ha)
  calc l.length = (l.map f).toFinset.card := by
        rw [List.toFinset_card_of_nodup distinct, List.length_map]
    _ ≤ (Finset.Icc 0 (n : ℤ)).card := Finset.card_le_card within
    _ = n + 1 := by rw [Int.card_Icc]; omega

end Uta.Lib.Chain
