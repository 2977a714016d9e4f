/- Books of executions: an entry is opened once, closed once and superseded at
most once, by an entry opened in the same step. -/
import Mathlib.Logic.Function.Basic
import Mathlib.Logic.Relation
import Mathlib.Tactic.Common

namespace Uta.Lib.Book

/-- What an execution is, how it was closed and which execution replaced it. -/
structure Entry (κ ι ε : Type) where
  identity : ι
  verdict : Option ε
  successor : Option κ

abbrev Pages (κ ι ε : Type) := κ → Option (Entry κ ι ε)

variable {κ ι ε : Type} [DecidableEq κ]

/-- One step of a book. `retryable` are the verdicts an entry may be superseded
under; `blank` are the keys that a successor column reads as no successor. -/
inductive Step (retryable : ε → Prop) (blank : κ → Prop) : Pages κ ι ε → Pages κ ι ε → Prop
  | idle (b) : Step retryable blank b b
  | start {b : Pages κ ι ε} {k : κ} (i : ι) : b k = none →
      Step retryable blank b (Function.update b k (some ⟨i, none, none⟩))
  | close {b : Pages κ ι ε} {k : κ} {e : Entry κ ι ε} (v : ε) : b k = some e → e.verdict = none →
      Step retryable blank b (Function.update b k (some { e with verdict := some v }))
  | supersede {b : Pages κ ι ε} {old new : κ} {e : Entry κ ι ε} (v : ε) (i : ι) :
      b old = some e → b new = none → retryable v → (e.verdict = none ∨ e.verdict = some v) →
      (∀ s, e.successor = some s → blank s) →
      Step retryable blank b (Function.update
        (Function.update b old (some ⟨e.identity, some v, some new⟩)) new (some ⟨i, none, none⟩))

/-- `c` keeps of `b` every entry, its identity, its verdict and its successor. -/
def Extends (blank : κ → Prop) (b c : Pages κ ι ε) : Prop :=
  ∀ k e, b k = some e → ∃ f, c k = some f ∧ f.identity = e.identity ∧
    (∀ v, e.verdict = some v → f.verdict = some v) ∧
    (∀ s, e.successor = some s → ¬ blank s → f.successor = some s)

/-- The links of a book: each leads to an entry, no two to the same one, and a
linked entry has been closed with a retryable verdict. -/
structure Sound (retryable : ε → Prop) (b : Pages κ ι ε) : Prop where
  present : ∀ k e s, b k = some e → e.successor = some s → b s ≠ none
  single : ∀ j k e f s, b j = some e → b k = some f → e.successor = some s →
    f.successor = some s → j = k
  closed : ∀ k e s, b k = some e → e.successor = some s → ∃ v, e.verdict = some v ∧ retryable v

variable {retryable : ε → Prop} {blank : κ → Prop} {b c d : Pages κ ι ε}

omit [DecidableEq κ] in
theorem Extends.refl (b : Pages κ ι ε) : Extends blank b b :=
  fun _ e h => ⟨e, h, rfl, fun _ hv => hv, fun _ hs _ => hs⟩

omit [DecidableEq κ] in
theorem Extends.trans (hbc : Extends blank b c) (hcd : Extends blank c d) : Extends blank b d := by
  intro k e he
  obtain ⟨f, hf, idf, verdict, link⟩ := hbc k e he
  obtain ⟨g, hg, idg, verdict', link'⟩ := hcd k f hf
  exact ⟨g, hg, idg.trans idf, fun v hv => verdict' v (verdict v hv),
    fun s hs hb => link' s (link s hs hb) hb⟩

theorem Step.extends (h : Step retryable blank b c) : Extends blank b c := by
  intro j f hf
  cases h with
  | idle => exact Extends.refl b j f hf
  | @start k i absent =>
      have ne : j ≠ k := by rintro rfl; rw [absent] at hf; cases hf
      exact ⟨f, by rw [Function.update_of_ne ne]; exact hf, rfl, fun _ hv => hv, fun _ hs _ => hs⟩
  | @close k e v found opened =>
      by_cases same : j = k
      · subst same
        obtain rfl : e = f := Option.some.inj (found.symm.trans hf)
        refine ⟨_, Function.update_self .., rfl, ?_, fun _ hs _ => hs⟩
        intro w hw
        rw [opened] at hw; cases hw
      · exact ⟨f, by rw [Function.update_of_ne same]; exact hf, rfl, fun _ hv => hv, fun _ hs _ => hs⟩
  | @supersede old new e v i found absent _ verdict unlinked =>
      have ne : j ≠ new := by rintro rfl; rw [absent] at hf; cases hf
      rw [Function.update_of_ne ne]
      by_cases same : j = old
      · subst same
        obtain rfl : e = f := Option.some.inj (found.symm.trans hf)
        refine ⟨_, Function.update_self .., rfl, ?_, ?_⟩
        · intro w hw
          rcases verdict with opened | closed
          · rw [opened] at hw; cases hw
          · rw [closed] at hw; exact hw
        · intro s hs nonblank
          exact absurd (unlinked s hs) nonblank
      · exact ⟨f, by rw [Function.update_of_ne same]; exact hf, rfl, fun _ hv => hv, fun _ hs _ => hs⟩

/-- Overwriting a page with an entry of the same successor, or of none, keeps
the links; the verdict of a linked entry is the caller's to keep. -/
theorem Sound.update (h : Sound retryable b) {k : κ} {e : Entry κ ι ε}
    (link : ∀ s, e.successor = some s → ∃ f, b k = some f ∧ f.successor = some s ∧
      f.verdict = e.verdict) : Sound retryable (Function.update b k (some e)) := by
  have old : ∀ j f s, Function.update b k (some e) j = some f → f.successor = some s →
      ∃ g, b j = some g ∧ g.successor = some s ∧ g.verdict = f.verdict := by
    intro j f s hf hs
    by_cases same : j = k
    · subst same
      rw [Function.update_self] at hf
      cases hf
      exact link s hs
    · rw [Function.update_of_ne same] at hf
      exact ⟨f, hf, hs, rfl⟩
  constructor
  · intro j f s hf hs
    obtain ⟨g, hg, hgs, _⟩ := old j f s hf hs
    by_cases same : s = k
    · subst same; rw [Function.update_self]; simp
    · rw [Function.update_of_ne same]; exact h.present j g s hg hgs
  · intro i j f g s hf hg hfs hgs
    obtain ⟨f', hf', hfs', _⟩ := old i f s hf hfs
    obtain ⟨g', hg', hgs', _⟩ := old j g s hg hgs
    exact h.single i j f' g' s hf' hg' hfs' hgs'
  · intro j f s hf hs
    obtain ⟨g, hg, hgs, verdict⟩ := old j f s hf hs
    rw [← verdict]
    exact h.closed j g s hg hgs

theorem Step.sound (h : Step retryable blank b c) (hb : Sound retryable b) : Sound retryable c := by
  cases h with
  | idle => exact hb
  | start i absent => exact hb.update (by intro s hs; cases hs)
  | @close k e v found opened =>
      refine hb.update ?_
      intro s hs
      obtain ⟨w, hw, _⟩ := hb.closed k e s found hs
      rw [opened] at hw; cases hw
  | @supersede old new e v i found absent retry verdict unlinked =>
      have ne : old ≠ new := by rintro rfl; rw [absent] at found; cases found
      -- Only `old` leads to `new`: no page led there while it was empty.
      have only : ∀ j f s, (Function.update b old (some ⟨e.identity, some v, some new⟩)) j = some f →
          f.successor = some s → (j = old ∧ s = new) ∨ (j ≠ old ∧ s ≠ new ∧ b j = some f) := by
        intro j f s hf hs
        by_cases same : j = old
        · subst same
          rw [Function.update_self] at hf
          cases hf
          exact .inl ⟨rfl, (Option.some.inj hs).symm⟩
        · rw [Function.update_of_ne same] at hf
          refine .inr ⟨same, ?_, hf⟩
          rintro rfl
          exact hb.present j f s hf hs absent
      have fresh : ∀ j f s, (Function.update (Function.update b old
          (some ⟨e.identity, some v, some new⟩)) new (some ⟨i, none, none⟩)) j = some f →
          f.successor = some s →
          (Function.update b old (some ⟨e.identity, some v, some new⟩)) j = some f := by
        intro j f s hf hs
        by_cases same : j = new
        · subst same
          rw [Function.update_self] at hf
          cases hf; cases hs
        · rwa [Function.update_of_ne same] at hf
      constructor
      · intro j f s hf hs
        by_cases same : s = new
        · subst same; rw [Function.update_self]; simp
        · rw [Function.update_of_ne same]
          rcases only j f s (fresh j f s hf hs) hs with ⟨_, hs'⟩ | ⟨_, _, hj⟩
          · exact absurd hs' same
          · by_cases back : s = old
            · subst back; rw [Function.update_self]; simp
            · rw [Function.update_of_ne back]; exact hb.present j f s hj hs
      · intro j k f g s hf hg hfs hgs
        rcases only j f s (fresh j f s hf hfs) hfs with ⟨hj, hs⟩ | ⟨_, hs, hj⟩ <;>
        rcases only k g s (fresh k g s hg hgs) hgs with ⟨hk, hs'⟩ | ⟨_, hs', hk⟩
        · exact hj.trans hk.symm
        · exact absurd hs hs'
        · exact absurd hs' hs
        · exact hb.single j k f g s hj hk hfs hgs
      · intro j f s hf hs
        have hf' := fresh j f s hf hs
        rcases only j f s hf' hs with ⟨rfl, _⟩ | ⟨_, _, hj⟩
        · rw [Function.update_self] at hf'
          cases hf'
          exact ⟨v, rfl, retry⟩
        · exact hb.closed j f s hj hs

omit [DecidableEq κ] in
theorem sound_empty : Sound retryable (fun _ => none : Pages κ ι ε) :=
  ⟨fun _ _ _ h => (nomatch h), fun _ _ _ _ _ h => (nomatch h), fun _ _ _ h => (nomatch h)⟩

end Uta.Lib.Book
