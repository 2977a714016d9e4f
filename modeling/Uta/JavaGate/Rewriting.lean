/- When a Maven command line is rewritten as it should be: each replaced property has its value
and no other, the rest is kept, and a second rewriting changes nothing. -/
import Mathlib.Data.List.Perm.Subperm
import Uta.JavaGate.ArgumentLaws
import Uta.JavaGate.ScopeLaws
import Uta.Lib.Lines

namespace Uta.JavaGate.Arguments
open Uta.Lib
open Uta.Operations (PyFloat)

/-! Rewritings of properties. -/

namespace Plan

/-- The subjects of a plan, each with those that its step writes. -/
def skeleton (plan : Plan) : List (Subject × List Subject) :=
  plan.steps.map fun s => (s.subject, s.sets.map Prod.fst)

end Plan

/-- The subject is a property whose name can be told from its value. -/
def Subject.isProperty : Subject → Bool
  | .property p => clean p
  | .projects => false

/-- Properties that are all removed, that no later step removes again, and flags besides. -/
structure Tidy (skeleton : List (Subject × List Subject)) (flags : List Token) : Prop where
  names : ∀ e ∈ skeleton, e.1.isProperty = true
  sets : ∀ e ∈ skeleton, ∀ s ∈ e.2, s ∈ skeleton.map Prod.fst
  lasting : skeleton.Pairwise fun e later => later.1 ∉ e.2
  distinct : (skeleton.flatMap Prod.snd).Nodup
  apart : ∀ f ∈ flags, clean f = true ∧ Subject.property f ∉ skeleton.map Prod.fst
  ends : flags ≠ [] → skeleton.flatMap Prod.snd ≠ []

/-- A plan of properties and flags. -/
structure Replacing (plan : Plan) (flags : List Token) : Prop where
  tidy : Tidy plan.skeleton flags
  defaults : plan.defaults = flags.map unlessAssigned

namespace Replacing
variable {plan : Plan} {flags : List Token} (r : Replacing plan flags) {m : Maven}
  {cmd : List Token} {items out : List Item} {i : Item} {t : Token} {s : Subject} {step : Step}

theorem subjects_eq : plan.subjects = plan.skeleton.map Prod.fst := by
  rw [Plan.subjects, Plan.skeleton, List.map_map]
  rfl

theorem mem_skeleton (known : step ∈ plan.steps) :
    (step.subject, step.sets.map Prod.fst) ∈ plan.skeleton := List.mem_map_of_mem known

theorem owned_iff : Stage.owned plan.stages t = true ↔
    ∃ s ∈ plan.subjects, s.remover.owns t = true := by
  simp [Stage.owned, Plan.stages, Plan.subjects, Step.stage]

include r

theorem property (known : s ∈ plan.subjects) : ∃ p, s = .property p ∧ clean p = true := by
  rw [subjects_eq] at known
  obtain ⟨e, inside, rfl⟩ := List.mem_map.mp known
  have named := r.tidy.names e inside
  cases same : e.1 with
  | property p => exact ⟨p, rfl, by rw [same] at named; exact named⟩
  | projects => rw [same] at named; cases named

theorem set_known (known : step ∈ plan.steps) {x : Subject × (List Token → Token)}
    (sets : x ∈ step.sets) : x.1 ∈ plan.subjects := by
  rw [subjects_eq]
  exact r.tidy.sets _ (mem_skeleton known) x.1 (List.mem_map_of_mem sets)

/-- What a step writes are definitions. -/
theorem fresh_assigned (known : step ∈ plan.steps) (new : t ∈ step.stage.fresh cmd) :
    ∃ x ∈ step.sets, ∃ p, x.1 = .property p ∧ clean p = true ∧ t = assigned p ++ x.2 cmd := by
  obtain ⟨e, written, inside⟩ := List.mem_flatMap.mp new
  obtain ⟨x, sets, rfl⟩ := List.mem_map.mp written
  obtain ⟨p, same, tidy⟩ := r.property (r.set_known known sets)
  refine ⟨x, sets, p, same, tidy, ?_⟩
  dsimp only at inside
  rw [same] at inside
  exact List.mem_singleton.mp inside

theorem lasting : Stage.Lasting plan.stages := by
  have pairs := r.tidy.lasting
  have each := fun step (known : step ∈ plan.steps) cmd t (new : t ∈ step.stage.fresh cmd) =>
    r.fresh_assigned known new
  have named := fun s known => r.property (s := s) known
  rw [Plan.skeleton, List.pairwise_map] at pairs
  rw [Plan.stages]
  rw [Plan.subjects] at named
  generalize plan.steps = steps at pairs each named
  induction pairs with
  | nil => trivial
  | @cons step later first _ ih =>
      refine ⟨fun cmd t new => ?_, ih (fun u known => each u (List.mem_cons_of_mem _ known))
        fun s known => named s (List.mem_cons_of_mem _ known)⟩
      obtain ⟨x, sets, p, same, tidy, rfl⟩ := each step List.mem_cons_self cmd t new
      refine Bool.eq_false_iff.mpr fun removed => ?_
      obtain ⟨stage, inside, own⟩ := List.any_eq_true.mp removed
      obtain ⟨u, after, rfl⟩ := List.mem_map.mp inside
      obtain ⟨q, other, clean_⟩ := named u.subject
        (List.mem_cons_of_mem _ (List.mem_map_of_mem after))
      dsimp only [Step.stage] at own
      rw [other, owns_assigned tidy clean_] at own
      subst own
      refine first u after ?_
      rw [other, ← same]
      exact List.mem_map_of_mem sets

theorem plain : Stage.Plain plan.stages := by
  intro stage inside cmd t new other among
  obtain ⟨step, known, rfl⟩ := List.mem_map.mp inside
  obtain ⟨u, after, rfl⟩ := List.mem_map.mp among
  obtain ⟨x, -, p, -, -, rfl⟩ := r.fresh_assigned known new
  obtain ⟨q, same, tidy⟩ := r.property (List.mem_map_of_mem after)
  dsimp only [Step.stage]
  rw [same]
  exact bare_assigned tidy

theorem own : ∀ stage ∈ plan.stages, ∀ cmd, ∀ t ∈ stage.fresh cmd,
    Stage.owned plan.stages t = true := by
  intro stage inside cmd t new
  obtain ⟨step, known, rfl⟩ := List.mem_map.mp inside
  obtain ⟨x, sets, p, same, tidy, rfl⟩ := r.fresh_assigned known new
  exact owned_iff.mpr ⟨x.1, r.set_known known sets,
    by rw [same]; exact (owns_assigned tidy tidy).mpr rfl⟩

theorem default {d : Default Token} (known : d ∈ plan.defaults) :
    ∃ f, d = unlessAssigned f ∧ clean f = true ∧ Subject.property f ∉ plan.subjects := by
  rw [r.defaults] at known
  obtain ⟨f, flag, rfl⟩ := List.mem_map.mp known
  obtain ⟨tidy, apart⟩ := r.tidy.apart f flag
  exact ⟨f, rfl, tidy, by rwa [subjects_eq]⟩

theorem apart {d : Default Token} (known : d ∈ plan.defaults) (t : Token)
    (present : d.present t = true) : Stage.owned plan.stages t = false ∧
      ∀ stage ∈ plan.stages, stage.remover.bare t = false := by
  obtain ⟨f, rfl, tidy, apart⟩ := r.default known
  obtain ⟨x, rfl⟩ := (isPrefixOf_iff _ _).mp present
  refine ⟨Bool.eq_false_iff.mpr fun removed => ?_, fun stage inside => ?_⟩
  · obtain ⟨s, among, own⟩ := owned_iff.mp removed
    obtain ⟨p, rfl, clean_⟩ := r.property among
    exact apart ((owns_assigned tidy clean_).mp own ▸ among)
  · obtain ⟨u, after, rfl⟩ := List.mem_map.mp inside
    obtain ⟨q, same, clean_⟩ := r.property (List.mem_map_of_mem after)
    dsimp only [Step.stage]
    rw [same]
    exact bare_assigned clean_

omit r in
theorem keys_skeleton : plan.steps.flatMap (fun s => s.sets.map Prod.fst) =
    plan.skeleton.flatMap Prod.snd := by
  rw [Plan.skeleton, List.flatMap_map]

omit r in
theorem keys_eq (cmd earlier : List Token) : (Plan.writtenBy plan.steps cmd).map Prod.fst =
    (plan.settings earlier).map Prod.fst := by
  rw [Plan.keys_written, Plan.keys_settings]

theorem distinct (cmd : List Token) : ((plan.settings cmd).map Prod.fst).Nodup := by
  rw [Plan.keys_settings, keys_skeleton]
  exact r.tidy.distinct

theorem key_known {x : Subject × Token} (inside : x ∈ plan.settings cmd) :
    x.1 ∈ plan.subjects := by
  obtain ⟨step, known, values⟩ := List.mem_flatMap.mp inside
  obtain ⟨set, sets, rfl⟩ := List.mem_map.mp values
  exact r.set_known known sets

theorem written_known {x : Subject × Token} (inside : x ∈ Plan.writtenBy plan.steps cmd) :
    x.1 ∈ plan.subjects := by
  have key : x.1 ∈ (plan.settings cmd).map Prod.fst :=
    keys_eq cmd cmd ▸ List.mem_map_of_mem inside
  obtain ⟨y, known, same⟩ := List.mem_map.mp key
  exact same ▸ r.key_known known

theorem readable_of_known {x : Subject × Token} (known : x.1 ∈ plan.subjects) : Readable m x := by
  obtain ⟨p, same, tidy⟩ := r.property known
  rcases x with ⟨s, y⟩
  cases same
  exact tidy

theorem ends (some_ : plan.defaults ≠ []) (cmd : List Token) :
    Stage.freshes plan.stages cmd ≠ [] := by
  intro none_
  have flagged : flags ≠ [] := by
    rintro rfl
    exact some_ r.defaults
  have keys := r.tidy.ends flagged
  rw [← keys_skeleton, ← Plan.keys_written plan.steps cmd] at keys
  rw [Plan.stages, Plan.freshes_written] at none_
  cases written : Plan.writtenBy plan.steps cmd with
  | nil => exact keys (by rw [written]; rfl)
  | cons x rest =>
      rw [written] at none_
      cases none_

/-- The plan as a rewriting. -/
def rewriting : Rewriting Token where
  stages := plan.stages
  defaults := plan.defaults
  lasting := r.lasting
  plain := r.plain
  own := r.own
  present d known := by
    obtain ⟨f, rfl, -⟩ := r.default known
    exact (isPrefixOf_iff _ _).mpr ⟨_, rfl⟩
  apart d known t present := r.apart known t present
  ends := r.ends

/-- An item that a remover of the plan knows gives the remover's property a value. -/
theorem subject_of_owns (formed : m.Formed i) (known : s ∈ plan.subjects)
    (own : s.remover.owns i.head = true) : i.subject m = some s := by
  obtain ⟨p, rfl, tidy⟩ := r.property known
  obtain ⟨⟨text, form, named⟩, -⟩ := form_of_owns (m := m) tidy own
  rcases formed with ⟨here, -⟩ | ⟨here, -⟩
  · rw [form] at here
    obtain ⟨role, same⟩ := Form.alone.inj (Option.some.inj here)
    rw [Item.subject, ← role, ← same, ← named]
  · rw [form] at here
    cases here

omit r in
theorem replaces_of_subject (subject : i.subject m = some s) (known : s ∈ plan.subjects) :
    plan.replaces m i = true := by
  simp [Plan.replaces, subject, known]

omit r in
theorem owned_of_replaces (spelled : Spelled m plan items) (inside : i ∈ items)
    (replaced : plan.replaces m i = true) : Stage.owned plan.stages i.head = true := by
  obtain ⟨s, subject, known⟩ := (Option.any_eq_true _ _).mp replaced
  exact owned_iff.mpr ⟨s, of_decide_eq_true known,
    spelled i inside s (of_decide_eq_true known) subject⟩

omit r in
theorem formed (accepted : m.read none cmd = some items) : ∀ i ∈ items, m.Formed i :=
  Maven.formed_of_read accepted fun _ _ same => nomatch same

/-- When the removers know every definition, the rest is what is not replaced. -/
theorem rest_eq (accepted : m.read none cmd = some items) (spelled : Spelled m plan items) :
    items.filter (!Stage.owned plan.stages ·.head) = items.filter (!plan.replaces m ·) := by
  refine List.filter_congr fun i inside => ?_
  have iff_ : Stage.owned plan.stages i.head = true ↔ plan.replaces m i = true := by
    refine ⟨fun own => ?_, owned_of_replaces spelled inside⟩
    obtain ⟨s, known, mine⟩ := owned_iff.mp own
    exact replaces_of_subject (r.subject_of_owns (formed accepted i inside) known mine) known
  rw [Bool.eq_iff_iff.mpr iff_]

theorem read_rest (accepted : m.read none cmd = some items) :
    m.read none (cmd.filter (!Stage.owned plan.stages ·)) =
      some (items.filter (!Stage.owned plan.stages ·.head)) := by
  refine Maven.read_filter (fun t gone => ?_) accepted fun _ _ same => nomatch same
  obtain ⟨s, known, own⟩ := owned_iff.mp gone
  obtain ⟨p, rfl, tidy⟩ := r.property known
  obtain ⟨⟨text, form, -⟩, argument⟩ := form_of_owns (m := m) tidy own
  exact ⟨argument, _, _, form⟩

/-- What Maven reads of the rest and of what is written. -/
theorem read_rewritten (accepted : m.read none cmd = some items) (earlier : List Token) :
    m.read none (cmd.filter (!Stage.owned plan.stages ·) ++ Stage.freshes plan.stages earlier) =
      some (items.filter (!Stage.owned plan.stages ·.head) ++
        (Plan.writtenBy plan.steps earlier).map Item.of) := by
  rw [Maven.read_append (r.read_rest accepted), Plan.stages, Plan.freshes_written,
    Maven.read_tokens fun i inside => ?_, Option.map_some]
  obtain ⟨x, written, rfl⟩ := List.mem_map.mp inside
  exact formed_of (r.readable_of_known (r.written_known written))

theorem valuesOf_written (s : Subject) (cmd : List Token) :
    m.valuesOf s ((Plan.writtenBy plan.steps cmd).map Item.of) =
      ((Plan.writtenBy plan.steps cmd).filter (·.1 = s)).map Prod.snd :=
  valuesOf_of fun _ written => r.readable_of_known (r.written_known written)

omit r in
theorem valuesOf_rest (spelled : Spelled m plan items) (known : s ∈ plan.subjects) :
    m.valuesOf s (items.filter (!Stage.owned plan.stages ·.head)) = [] := by
  refine Maven.valuesOf_eq_nil fun i inside subject => ?_
  obtain ⟨among, unowned⟩ := List.mem_filter.mp inside
  rw [owned_iff.mpr ⟨s, known, spelled i among s known subject⟩] at unowned
  cases unowned

theorem replaces_written {x : Subject × Token} (known : x.1 ∈ plan.subjects) :
    plan.replaces m (Item.of x) = true := by
  rw [Plan.replaces, subject_of (r.readable_of_known known), Option.any_some]
  exact decide_eq_true known

/-- A legible command line is rewritten as it should be. -/
theorem right_of_legible (accepted : m.read none cmd = some items)
    (legible : Legible m plan cmd items)
    (steady : ∀ rest, (∀ t ∈ rest, Stage.owned plan.stages t = false) →
      Plan.writtenBy plan.steps (rest ++ Stage.freshes plan.stages cmd) =
        Plan.writtenBy plan.steps cmd) :
    ∃ out, m.read none (plan.apply cmd) = some out ∧
      Rewritten m plan cmd items plan.apply out := by
  have properties : Subject.projects ∉ plan.subjects := fun known => by
    obtain ⟨p, same, -⟩ := r.property known
    cases same
  have spared : Stage.Spared r.rewriting.stages cmd := legible.spared properties
  have same : plan.apply cmd = cmd.filter (!Stage.owned plan.stages ·) ++
      Stage.freshes plan.stages cmd := Rewriting.apply_eq spared legible.present
  have read := r.read_rewritten accepted cmd
  rw [← same] at read
  refine ⟨_, read, ?_, ?_, ?_, Rewriting.again_of_spared spared legible.present ?_⟩
  · intro s x setting
    have known := r.key_known setting
    rw [Maven.valuesOf_append, valuesOf_rest legible.spelled known, r.valuesOf_written,
      legible.merged, filter_of_nodup (r.distinct cmd) setting]
    rfl
  · intro s known unset
    rw [Maven.valuesOf_append, valuesOf_rest legible.spelled known, r.valuesOf_written,
      legible.merged, List.filter_eq_nil_iff.mpr]
    · rfl
    · intro x setting key
      have key : x.1 = s := of_decide_eq_true key
      exact unset (List.mem_map.mpr ⟨x, setting, key⟩)
  · have gone : ((Plan.writtenBy plan.steps cmd).map Item.of).filter (!plan.replaces m ·) = [] := by
      refine List.filter_eq_nil_iff.mpr fun i inside => ?_
      obtain ⟨x, written, rfl⟩ := List.mem_map.mp inside
      simp [r.replaces_written (r.written_known written)]
    rw [List.filter_append, gone, List.append_nil, r.rest_eq accepted legible.spelled,
      List.filter_filter]
    simp
  · change Stage.freshes plan.stages (plan.apply cmd) = Stage.freshes plan.stages cmd
    have unowned : ∀ t ∈ cmd.filter (!Stage.owned plan.stages ·),
        Stage.owned plan.stages t = false := fun t inside => by
      simpa using (List.mem_filter.mp inside).2
    have written : ∀ c, Stage.freshes plan.stages c =
        ((Plan.writtenBy plan.steps c).map Item.of).flatMap Item.tokens :=
      Plan.freshes_written plan.steps
    rw [written, written cmd, same, steady _ unowned]

/-! The other direction. -/

theorem apply_eq_runAll (again : plan.apply (plan.apply cmd) = plan.apply cmd) :
    plan.apply cmd = Stage.runAll plan.stages cmd :=
  Default.addAll_of_present fun _ known =>
    Rewriting.present_of_again (w := r.rewriting) again known

/-- What would be added was there before. -/
theorem present_of_again (again : plan.apply (plan.apply cmd) = plan.apply cmd) {d : Default Token}
    (known : d ∈ plan.defaults) : cmd.any d.present = true := by
  have present := Rewriting.present_of_again (w := r.rewriting) again known
  obtain ⟨t, kept, here⟩ := List.any_eq_true.mp present
  rcases Stage.mem_runAll kept with before | ⟨stage, inside, us, new⟩
  · exact List.any_eq_true.mpr ⟨t, before, here⟩
  · have owned := r.own stage inside us t new
    rw [(r.apart known t here).1] at owned
    cases owned

omit r in
theorem length_tokens_ge (replaced : Item → Bool) (out : List Item) :
    ((out.filter (!replaced ·)).flatMap Item.tokens).length + (out.filter replaced).length ≤
      (out.flatMap Item.tokens).length := by
  induction out with
  | nil => rfl
  | cons i rest ih =>
      have some_ : 1 ≤ i.tokens.length := by simp [Item.tokens]
      rw [List.filter_cons, List.filter_cons, List.flatMap_cons, List.length_append]
      cases replaced i with
      | true =>
          simp only [Bool.not_true, Bool.false_eq_true, ↓reduceIte, List.length_cons]
          omega
      | false =>
          simp only [Bool.not_false, ↓reduceIte, Bool.false_eq_true, List.flatMap_cons,
            List.length_append]
          omega

/-- Each setting has an item of its own. -/
theorem length_settings_le
    (once : ∀ s x, (s, x) ∈ plan.settings cmd → m.valuesOf s out = [x]) :
    (plan.settings cmd).length ≤ (out.filter (plan.replaces m)).length := by
  have subset : (plan.settings cmd).map Prod.fst ⊆
      (out.filter (plan.replaces m)).filterMap (Item.subject m) := by
    intro s inside
    obtain ⟨⟨key, x⟩, setting, rfl⟩ := List.mem_map.mp inside
    obtain ⟨i, among, subject⟩ := Maven.exists_of_valuesOf
      (once key x setting ▸ List.mem_singleton_self x)
    exact List.mem_filterMap.mpr ⟨i, List.mem_filter.mpr
      ⟨among, replaces_of_subject subject (r.key_known setting)⟩, subject⟩
  have shorter := (List.subperm_of_subset (r.distinct cmd) subset).length_le
  rw [List.length_map] at shorter
  exact shorter.trans (List.length_filterMap_le _ _)

theorem length_freshes (cmd earlier : List Token) :
    (Stage.freshes plan.stages earlier).length = (plan.settings cmd).length := by
  have single : ∀ x ∈ Plan.writtenBy plan.steps earlier, (Item.of x).tokens.length = 1 := by
    rintro ⟨s, y⟩ written
    obtain ⟨p, rfl, -⟩ := r.property (r.written_known written)
    rfl
  have keys : ((Plan.writtenBy plan.steps earlier).map Prod.fst).length =
      ((plan.settings cmd).map Prod.fst).length := congrArg List.length (keys_eq earlier cmd)
  rw [List.length_map, List.length_map] at keys
  have ones := List.map_congr_left single
  rw [Plan.stages, Plan.freshes_written, List.length_flatMap, List.map_map, ← keys]
  refine (congrArg List.sum ones).trans ?_
  simp

/-- When the removers know every definition, they have skipped nothing else. -/
theorem spared_of_spelled (accepted : m.read none cmd = some items)
    (read : m.read none (plan.apply cmd) = some out)
    (right : Rewritten m plan cmd items plan.apply out) (spelled : Spelled m plan items) :
    Stage.Spared plan.stages cmd := by
  refine Stage.spared_of_length r.lasting ?_
  have tokens := Maven.tokens_read read
  have rest := Maven.tokens_read (r.read_rest accepted)
  rw [Option.map_none, Option.toList_none, List.nil_append] at tokens rest
  rw [r.rest_eq accepted spelled, ← right.kept] at rest
  have parts := length_tokens_ge (plan.replaces m) out
  have own := r.length_settings_le right.once
  rw [tokens, rest, r.apply_eq_runAll right.again] at parts
  rw [r.length_freshes cmd]
  omega

/-- When nothing is skipped, a definition that its remover does not know is one too many. -/
theorem spelled_of_spared (accepted : m.read none cmd = some items)
    (spared : Stage.Spared plan.stages cmd) (read : m.read none (plan.apply cmd) = some out)
    (right : Rewritten m plan cmd items plan.apply out) : Spelled m plan items := by
  intro i inside s known subject
  by_contra foreign
  have unowned : Stage.owned plan.stages i.head = false := by
    refine Bool.eq_false_iff.mpr fun own => ?_
    obtain ⟨u, other, mine⟩ := owned_iff.mp own
    have same := r.subject_of_owns (formed accepted i inside) other mine
    rw [subject] at same
    cases same
    exact foreign mine
  have rewritten := r.read_rewritten accepted cmd
  rw [← Stage.runAll_eq r.lasting spared, ← r.apply_eq_runAll right.again, read] at rewritten
  obtain rfl := Option.some.inj rewritten
  have kept : i ∈ items.filter (!Stage.owned plan.stages ·.head) :=
    List.mem_filter.mpr ⟨inside, by simp [unowned]⟩
  have first := Maven.valuesOf_ne_nil kept subject
  by_cases set : s ∈ (plan.settings cmd).map Prod.fst
  · obtain ⟨x, setting⟩ : ∃ x, (s, x) ∈ plan.settings cmd := by
      obtain ⟨⟨key, x⟩, setting, rfl⟩ := List.mem_map.mp set
      exact ⟨x, setting⟩
    have written : s ∈ (Plan.writtenBy plan.steps cmd).map Prod.fst := keys_eq cmd cmd ▸ set
    obtain ⟨y, new, key⟩ := List.mem_map.mp written
    have second := Maven.valuesOf_ne_nil (List.mem_map_of_mem new)
      ((subject_of (m := m) (r.readable_of_known (r.written_known new))).trans
        (congrArg some key))
    have both := congrArg List.length (right.once s x setting)
    rw [Maven.valuesOf_append, List.length_append, List.length_singleton] at both
    have one := List.length_pos_of_ne_nil first
    have two := List.length_pos_of_ne_nil second
    omega
  · have none_ := right.dropped s known set
    rw [Maven.valuesOf_append] at none_
    exact first (List.append_eq_nil_iff.mp none_).1

/-- Unless the ways of setting a property are mixed, only a legible command line is rewritten as it
should be. -/
theorem legible_of_right (accepted : m.read none cmd = some items)
    (unmixed : Unmixed m plan cmd items) (read : m.read none (plan.apply cmd) = some out)
    (right : Rewritten m plan cmd items plan.apply out) : Legible m plan cmd items := by
  have both : Spelled m plan items ∧ Stage.Spared plan.stages cmd := by
    rcases unmixed with unskipped | spelled
    · have spared : Stage.Spared plan.stages cmd := by
        refine Stage.spared_of_no_bare r.plain fun t inside stage among => ?_
        obtain ⟨step, known, rfl⟩ := List.mem_map.mp among
        obtain ⟨p, same, -⟩ := r.property (List.mem_map_of_mem known)
        dsimp only [Step.stage]
        rw [same]
        refine decide_eq_false ?_
        rintro rfl
        exact unskipped p (same ▸ List.mem_map_of_mem known) inside
      exact ⟨r.spelled_of_spared accepted spared read right, spared⟩
    · exact ⟨spelled, r.spared_of_spelled accepted read right spelled⟩
  obtain ⟨spelled, spared⟩ := both
  refine ⟨spelled, fun _ => spared, ?_, fun d known => r.present_of_again right.again known, ?_⟩
  · refine (eq_of_keys (keys_eq cmd cmd).symm (keys_eq cmd cmd ▸ r.distinct cmd) ?_).symm
    rintro ⟨s, x⟩ setting
    have once := right.once s x setting
    have rewritten := r.read_rewritten accepted cmd
    rw [← Stage.runAll_eq r.lasting spared, ← r.apply_eq_runAll right.again, read] at rewritten
    obtain rfl := Option.some.inj rewritten
    rw [Maven.valuesOf_append, valuesOf_rest spelled (r.key_known setting), List.nil_append,
      r.valuesOf_written] at once
    obtain ⟨⟨key, value⟩, among, rfl⟩ := List.mem_map.mp (once ▸ List.mem_singleton_self x)
    obtain ⟨new, same⟩ := List.mem_filter.mp among
    exact (of_decide_eq_true same : key = s) ▸ new
  · intro x setting
    obtain ⟨p, same, -⟩ := r.property (r.key_known setting)
    cases same

end Replacing

/-! The project selector. -/

/-- The plan of the changed modules, for the text of their names. -/
def projectsPlan (names : Token) : Plan :=
  ⟨[⟨.projects, [(.projects, fun _ => names)]⟩], [alsoMake]⟩

namespace Projects
variable {m : Maven} {names t : Token} {cmd : List Token} {items out : List Item} {i : Item}
  {pending : Option (Token × Role)}

/-- What the remover knows, Maven reads as a project selector. -/
theorem form_of_owns (own : Subject.projects.remover.owns t = true) :
    m.form t = some (.ahead .select) ∧ Subject.projects.remover.bare t = true ∨
      ∃ text, m.form t = some (.alone .select text) ∧
        Subject.projects.remover.bare t = false := by
  rcases owns_projects.mp own with rfl | rfl | ⟨x, rfl⟩ | ⟨x, rfl⟩
  · exact .inl ⟨m.form_select _ (by simp), rfl⟩
  · exact .inl ⟨m.form_select _ (by simp), rfl⟩
  · exact .inr ⟨x, m.form_selected x _ (by simp), by simp [Subject.remover]⟩
  · exact .inr ⟨x, m.form_selected x _ (by simp), by simp [Subject.remover]⟩

theorem unknown_of_plain (plain : m.form t = none ∨ m.form t = some (.alone .plain t)) :
    Subject.projects.remover.owns t = false := by
  refine Bool.eq_false_iff.mpr fun own => ?_
  rcases form_of_owns (m := m) own with ⟨form, -⟩ | ⟨text, form, -⟩ <;>
    · rw [form] at plain
      rcases plain with none_ | plain
      · cases none_
      · cases plain

theorem unknown_of_argument (takes : m.argument t = true) :
    Subject.projects.remover.owns t = false := unknown_of_plain (m.argument_form t takes)

theorem subject_of_owns (formed : m.Formed i)
    (own : Subject.projects.remover.owns i.head = true) : i.subject m = some .projects := by
  have role : i.role = .select := by
    rcases form_of_owns (m := m) own with ⟨form, -⟩ | ⟨text, form, -⟩ <;>
      rcases formed with ⟨here, -⟩ | ⟨here, -⟩ <;> rw [form] at here
    · cases here
    · exact (Form.ahead.inj (Option.some.inj here)).symm
    · exact (Form.alone.inj (Option.some.inj here)).1.symm
    · cases here
  rw [Item.subject, role]

/-- The loop drops the selectors that it knows, with their arguments. -/
theorem read_without (accepted : m.read pending cmd = some items)
    (waits : ∀ t role, pending = some (t, role) → m.form t = some (.ahead role)) :
    m.read (pending.filter fun w => !Subject.projects.remover.owns w.1)
        (Subject.projects.remover.without
          (pending.any fun w => Subject.projects.remover.owns w.1) cmd) =
      some (items.filter (!Subject.projects.remover.owns ·.head)) := by
  induction cmd generalizing pending items with
  | nil =>
      cases pending with
      | some _ => cases accepted
      | none =>
          cases accepted
          rfl
  | cons t ts ih =>
      have none_ : ∀ u role, (none : Option (Token × Role)) = some (u, role) →
          m.form u = some (.ahead role) := fun u role same => nomatch same
      rcases pending with _ | ⟨u, role⟩
      · change m.read none (Subject.projects.remover.without false (t :: ts)) = _
        rw [Maven.read] at accepted
        split at accepted
        next => cases accepted
        next role text form =>
          obtain ⟨later, read, rfl⟩ := Option.map_eq_some_iff.mp accepted
          have rest := ih read none_
          rw [Remover.without]
          by_cases own : Subject.projects.remover.owns t = true
          · rcases form_of_owns (m := m) own with ⟨other, -⟩ | ⟨_, -, bare⟩
            · rw [form] at other
              cases other
            · have joined : Subject.projects.remover.joined t = true := by
                rwa [Remover.owns, bare, Bool.false_or] at own
              rw [if_neg (by simp [bare]), if_pos joined, List.filter_cons_of_neg (by simp [own])]
              exact rest
          · have unknown := Bool.or_eq_false_iff.mp (Bool.eq_false_iff.mpr own)
            rw [if_neg (by simp [unknown.1]), if_neg (by simp [unknown.2]),
              List.filter_cons_of_pos (by simp [own]), Maven.read, form]
            dsimp only
            exact (congrArg _ rest).trans rfl
        next role form =>
          have waits : ∀ u other, some (t, role) = some (u, other) →
              m.form u = some (.ahead other) := by
            intro u other same
            cases same
            exact form
          have rest := ih accepted waits
          rw [Remover.without]
          by_cases own : Subject.projects.remover.owns t = true
          · rcases form_of_owns (m := m) own with ⟨-, bare⟩ | ⟨_, other, -⟩
            · rw [if_pos bare]
              rw [Option.filter_some_neg (by simp [own]), Option.any_some, own] at rest
              exact rest
            · rw [form] at other
              cases other
          · have unknown := Bool.or_eq_false_iff.mp (Bool.eq_false_iff.mpr own)
            rw [if_neg (by simp [unknown.1]), if_neg (by simp [unknown.2]), Maven.read, form]
            rw [Option.filter_some_pos (by simp [own]), Option.any_some,
              Bool.eq_false_iff.mpr own] at rest
            exact rest
      · rw [Maven.read] at accepted
        split_ifs at accepted with takes
        obtain ⟨later, read, rfl⟩ := Option.map_eq_some_iff.mp accepted
        have rest := ih read none_
        rw [Option.any_some]
        by_cases own : Subject.projects.remover.owns u = true
        · rw [Option.filter_some_neg (by simp [own]), own, Remover.without,
            List.filter_cons_of_neg (by simp [own])]
          exact rest
        · have unknown := Bool.or_eq_false_iff.mp (unknown_of_argument takes)
          rw [Option.filter_some_pos (by simp [own]), Bool.eq_false_iff.mpr own, Remover.without,
            if_neg (by simp [unknown.1]), if_neg (by simp [unknown.2]), Maven.read, if_pos takes,
            List.filter_cons_of_pos (by simp [own])]
          exact (congrArg _ rest).trans rfl

/-- The command line without its project selectors. -/
def rest (cmd : List Token) : List Token := withoutMavenProjectSelector cmd

theorem read_rest (accepted : m.read none cmd = some items) :
    m.read none (rest cmd) = some (items.filter (!Subject.projects.remover.owns ·.head)) :=
  read_without accepted fun _ _ same => nomatch same

theorem apply_eq (names : Token) (cmd : List Token) :
    (projectsPlan names).apply cmd = alsoMake.add (rest cmd ++ ["-pl".toList, names]) := rfl

theorem also_unknown (also : alsoMake.present t = true) :
    Subject.projects.remover.owns t = false := by
  simp only [alsoMake, Bool.or_eq_true, decide_eq_true_eq] at also
  rcases also with rfl | rfl <;> decide

/-- `-am` is no argument of another option. -/
theorem also_rest (accepted : m.read none cmd = some items) :
    (rest cmd).any alsoMake.present = cmd.any alsoMake.present := by
  rw [Bool.eq_iff_iff]
  constructor
  · intro present
    obtain ⟨t, kept, also⟩ := List.any_eq_true.mp present
    exact List.any_eq_true.mpr ⟨t, (Remover.without_sublist false cmd).subset kept, also⟩
  · intro present
    obtain ⟨t, inside, also⟩ := List.any_eq_true.mp present
    have tokens := Maven.tokens_read accepted
    have others := Maven.tokens_read (read_rest accepted)
    rw [Option.map_none, Option.toList_none, List.nil_append] at tokens others
    rw [← tokens] at inside
    obtain ⟨i, among, own⟩ := List.mem_flatMap.mp inside
    have head : t = i.head := by
      rcases List.mem_cons.mp own with head | tail
      · exact head
      · rcases Replacing.formed accepted i among with ⟨-, none_⟩ | ⟨-, some_, takes⟩
        · rw [none_] at tail
          cases tail
        · rw [some_, Option.toList_some, List.mem_singleton] at tail
          rw [← tail, m.argument_also t also] at takes
          cases takes
    refine List.any_eq_true.mpr ⟨t, ?_, also⟩
    rw [← others]
    refine List.mem_flatMap.mpr ⟨i, List.mem_filter.mpr ⟨among, ?_⟩, own⟩
    rw [← head, also_unknown also]
    rfl

theorem rest_append (names : Token) (cmd ts : List Token) :
    rest (rest cmd ++ ["-pl".toList, names] ++ ts) = rest cmd ++ rest ts := by
  have unknown : ∀ t ∈ rest cmd, Subject.projects.remover.owns t = false :=
    fun t kept => Remover.not_owns kept
  rw [rest, withoutMavenProjectSelector, List.append_assoc, Remover.without_append unknown]
  rfl

/-- The selector is in its place the second time only if `-am` was there the first time. -/
theorem again_iff (takes : m.argument names = true) (accepted : m.read none cmd = some items) :
    (projectsPlan names).apply ((projectsPlan names).apply cmd) = (projectsPlan names).apply cmd ↔
      cmd.any alsoMake.present = true := by
  have names_ : alsoMake.present names = false := Bool.eq_false_iff.mpr fun also => by
    rw [m.argument_also names also] at takes
    cases takes
  have selector : (rest cmd ++ ["-pl".toList, names]).any alsoMake.present =
      cmd.any alsoMake.present := by
    have own : alsoMake.present "-pl".toList = false := by decide
    rw [List.any_append, also_rest accepted, List.any_cons, List.any_cons, own, names_]
    simp
  rw [apply_eq, apply_eq, Default.add.eq_1 (rest cmd ++ _), selector]
  by_cases present : cmd.any alsoMake.present = true
  · have same := rest_append names cmd []
    rw [List.append_nil, show rest [] = [] from rfl, List.append_nil] at same
    rw [if_pos present, same, Default.add, selector, if_pos present]
    exact iff_of_true rfl present
  · rw [if_neg present, rest_append]
    refine iff_of_false (fun again => ?_) present
    have also : alsoMake.present alsoMake.token = true := by decide
    have kept : rest [alsoMake.token] = [alsoMake.token] := by decide
    rw [kept, Default.add, if_pos (by simp [also]), List.append_assoc, List.append_assoc] at again
    cases List.append_cancel_left again

theorem replaces_iff : (projectsPlan names).replaces m i = true ↔ i.subject m = some .projects := by
  rw [Plan.replaces, Option.any_eq_true]
  constructor
  · rintro ⟨s, subject, known⟩
    rw [subject, List.mem_singleton.mp (of_decide_eq_true known)]
  · intro subject
    exact ⟨.projects, subject, decide_eq_true List.mem_cons_self⟩

theorem read_apply (accepted : m.read none cmd = some items) (takes : m.argument names = true)
    (present : cmd.any alsoMake.present = true) :
    m.read none ((projectsPlan names).apply cmd) =
      some (items.filter (!Subject.projects.remover.owns ·.head) ++
        [Item.of (.projects, names)]) := by
  have formed : ∀ i ∈ [Item.of (.projects, names)], m.Formed i := fun i inside =>
    (List.mem_singleton.mp inside) ▸ formed_of takes
  have there : (rest cmd ++ ["-pl".toList, names]).any alsoMake.present = true := by
    rw [List.any_append, also_rest accepted, present, Bool.true_or]
  rw [apply_eq, Default.add, if_pos there, Maven.read_append (read_rest accepted)]
  exact (congrArg _ (Maven.read_tokens formed)).trans rfl

theorem values_selector : m.valuesOf .projects [Item.of (.projects, names)] = [names] := rfl

/-- Maven reads the selector only with names that can be its argument. -/
theorem argument_of_read (after : m.read none ((projectsPlan names).apply cmd) = some out)
    (accepted : m.read none cmd = some items) : m.argument names = true := by
  obtain ⟨added, same, -⟩ := Default.addAll_append [alsoMake] (rest cmd ++ ["-pl".toList, names])
  have whole : (projectsPlan names).apply cmd = rest cmd ++ "-pl".toList :: names :: added := by
    refine same.trans ?_
    rw [List.append_assoc]
    rfl
  rw [whole, Maven.read_append (read_rest accepted)] at after
  obtain ⟨later, read, -⟩ := Option.map_eq_some_iff.mp after
  rw [Maven.read, m.form_select _ List.mem_cons_self] at read
  dsimp only at read
  rw [Maven.read] at read
  split_ifs at read with takes
  exact takes

/-- The changed modules take the place of the selectors exactly when the remover knows these and
`-am` is there. -/
theorem legible_iff (accepted : m.read none cmd = some items) :
    (∃ out, m.read none ((projectsPlan names).apply cmd) = some out ∧
      Rewritten m (projectsPlan names) cmd items (projectsPlan names).apply out) ↔
      Legible m (projectsPlan names) cmd items := by
  constructor
  · rintro ⟨out, after, right⟩
    have takes := argument_of_read after accepted
    have present := (again_iff takes accepted).mp right.again
    have same := Option.some.inj (after.symm.trans (read_apply accepted takes present))
    refine ⟨?_, fun absent => absurd List.mem_cons_self absent, rfl, ?_, ?_⟩
    · intro i inside s known subject
      obtain rfl := List.mem_singleton.mp known
      by_contra foreign
      have first : m.valuesOf .projects
          (items.filter (!Subject.projects.remover.owns ·.head)) ≠ [] :=
        Maven.valuesOf_ne_nil (List.mem_filter.mpr ⟨inside, by simp [foreign]⟩) subject
      have both := congrArg List.length (right.once .projects names List.mem_cons_self)
      rw [same, Maven.valuesOf_append, List.length_append, values_selector] at both
      have one := List.length_pos_of_ne_nil first
      simp only [List.length_singleton] at both
      omega
    · intro d known
      rw [List.mem_singleton.mp known]
      exact present
    · intro x set
      cases List.mem_singleton.mp set
      exact takes
  · intro legible
    have takes := legible.argument names List.mem_cons_self
    have present := legible.present alsoMake List.mem_cons_self
    refine ⟨_, read_apply accepted takes present, ?_, ?_, ?_,
      (again_iff takes accepted).mpr present⟩
    · intro s x set
      cases List.mem_singleton.mp set
      rw [Maven.valuesOf_append, values_selector, Maven.valuesOf_eq_nil, List.nil_append]
      intro i inside subject
      obtain ⟨among, unknown⟩ := List.mem_filter.mp inside
      rw [legible.spelled i among .projects List.mem_cons_self subject] at unknown
      cases unknown
    · intro s known unset
      exact absurd known unset
    · have gone : (projectsPlan names).replaces m (Item.of (.projects, names)) = true :=
        replaces_iff.mpr rfl
      have rest_ : ∀ i ∈ items, Subject.projects.remover.owns i.head =
          (projectsPlan names).replaces m i := by
        intro i inside
        rw [Bool.eq_iff_iff, replaces_iff]
        exact ⟨subject_of_owns (Replacing.formed accepted i inside),
          legible.spelled i inside .projects List.mem_cons_self⟩
      have others : items.filter (!Subject.projects.remover.owns ·.head) =
          items.filter (!(projectsPlan names).replaces m ·) :=
        List.filter_congr fun i inside => by rw [rest_ i inside]
      rw [List.filter_append, List.filter_cons_of_neg (by simp [gone]), List.filter_nil,
        List.append_nil, others, List.filter_filter]
      simp

end Projects

/-! The list of the excluded classes. -/

/-- An item of a comma-separated text. -/
def CsvItem (item : String) : Prop :=
  item.toList ≠ [] ∧ ',' ∉ item.toList ∧ PyText.strip item.toList = item.toList

theorem csvItem_of_mem {text : Token} {item : String} (inside : item ∈ csvItems text) :
    CsvItem item := by
  obtain ⟨part, kept, rfl⟩ := List.mem_map.mp inside
  obtain ⟨stripped, some_⟩ := List.mem_filter.mp kept
  obtain ⟨piece, among, rfl⟩ := List.mem_map.mp stripped
  rw [CsvItem, String.toList_ofList]
  refine ⟨of_decide_eq_true some_, fun comma => ?_, PyText.strip_strip piece⟩
  have own : ',' ∈ piece := by
    have shorter := List.dropWhile_sublist PyText.isSpace
      (l := (piece.dropWhile PyText.isSpace).reverse)
    have dropped := List.mem_reverse.mp (shorter.subset (List.mem_reverse.mp comma))
    exact (List.dropWhile_sublist _).subset dropped
  exact (PyText.mem_splitOn among).1 own

/-- Items that are joined are read as they are. -/
theorem csvItems_joined {items : List String} (each : ∀ item ∈ items, CsvItem item) :
    csvItems (joined (items.map String.toList)) = items := by
  by_cases none_ : items = []
  · subst none_
    rfl
  have pieces : (joined (items.map String.toList)).splitOn ',' = items.map String.toList := by
    refine List.splitOn_intercalate ',' (fun l inside => ?_) (by simpa using none_)
    obtain ⟨item, known, rfl⟩ := List.mem_map.mp inside
    exact (each item known).2.1
  have stripped : (items.map String.toList).map PyText.strip = items.map String.toList := by
    rw [List.map_map]
    exact List.map_congr_left fun item known => (each item known).2.2
  have some_ : (items.map String.toList).filter (· ≠ []) = items.map String.toList := by
    refine List.filter_eq_self.mpr fun l inside => decide_eq_true ?_
    obtain ⟨item, known, rfl⟩ := List.mem_map.mp inside
    exact (each item known).1
  rw [csvItems, pieces, stripped, some_, List.map_map]
  exact List.map_id'' (fun _ => String.ofList_toList) items

theorem mem_mergedCsv {existing additions : List String} {item : String} :
    item ∈ mergedCsv existing additions ↔ item ∈ existing ∨ item ∈ additions := by
  induction additions generalizing existing with
  | nil => simp [mergedCsv]
  | cons first rest ih =>
      rw [mergedCsv, List.foldl_cons]
      split_ifs with known
      · rw [← mergedCsv, ih, List.mem_cons]
        constructor
        · exact fun either => either.imp_right .inr
        · rintro (old | rfl | new)
          · exact .inl old
          · exact .inl known
          · exact .inr new
      · rw [← mergedCsv, ih, List.mem_append, List.mem_singleton, List.mem_cons, or_assoc]

theorem mergedCsv_of_subset {existing additions : List String}
    (known : ∀ item ∈ additions, item ∈ existing) : mergedCsv existing additions = existing := by
  induction additions with
  | nil => rfl
  | cons first rest ih =>
      rw [mergedCsv, List.foldl_cons, if_pos (known first List.mem_cons_self)]
      exact ih fun item later => known item (List.mem_cons_of_mem first later)

/-- What has been merged is merged again without a change. -/
theorem mergedCsvText_again {additions : List String} (each : ∀ item ∈ additions, CsvItem item)
    (existing : Token) :
    mergedCsvText (mergedCsvText existing additions) additions =
      mergedCsvText existing additions := by
  have items : ∀ item ∈ mergedCsv (csvItems existing) additions, CsvItem item := by
    intro item inside
    rcases mem_mergedCsv.mp inside with old | new
    · exact csvItem_of_mem old
    · exact each item new
  rw [mergedCsvText, mergedCsvText, csvItems_joined items,
    mergedCsv_of_subset fun item new => mem_mergedCsv.mpr (.inr new)]

theorem csvItem_of_excludable {letter : Char → Bool} {classes : List String} {item : String}
    (inside : item ∈ excludable letter classes) : CsvItem item := by
  obtain ⟨name, kept, rfl⟩ := List.mem_map.mp inside
  have java := (List.mem_filter.mp kept).2
  rw [isExcludableTestClass, List.all_eq_true] at java
  have whole : ['.'].intercalate (parts '.' (strip name)) = (strip name).toList :=
    List.intercalate_splitOn '.'
  have letters : ∀ part ∈ parts '.' (strip name), ∀ c ∈ part,
      isWord letter c = true ∨ c.isAlpha = true ∨ c = '_' ∨ c = '$' := by
    intro part among c own
    have identifier := java part among
    cases part with
    | nil => cases own
    | cons d ds =>
        simp only [isIdentifier, Bool.and_eq_true, Bool.or_eq_true, decide_eq_true_eq,
          List.all_eq_true] at identifier
        rcases List.mem_cons.mp own with rfl | later
        · rcases identifier.1 with (alpha | score) | dollar
          · exact .inr (.inl alpha)
          · exact .inr (.inr (.inl score))
          · exact .inr (.inr (.inr dollar))
        · rcases identifier.2 c later with word | dollar
          · exact .inl word
          · exact .inr (.inr (.inr dollar))
  refine ⟨fun none_ => ?_, fun comma => ?_, ?_⟩
  · have empty : parts '.' (strip name) = [[]] := by rw [parts, none_]; rfl
    have identifier := java [] (by rw [empty]; exact List.mem_cons_self)
    cases identifier
  · rw [← whole] at comma
    obtain ⟨part, among, own⟩ := PyText.mem_of_mem_intercalate (by decide) comma
    rcases letters part among ',' own with word | other
    · have none_ : isWord letter ',' = false := by
        have ascii : decide (128 ≤ ','.toNat) = false := rfl
        rw [isWord, ascii]
        rfl
      rw [none_] at word
      cases word
    · exact absurd other (by decide)
  · have same := congrArg String.toList (strip_strip name)
    rwa [strip, String.toList_ofList] at same

/-! A Maven with some of its options. -/

def sampleForm (t : Token) : Option Form :=
  if t = "-D".toList ∨ t = "--define".toList then some (.ahead .define)
  else if t = "-pl".toList ∨ t = "--projects".toList then some (.ahead .select)
  else if t = "-P".toList ∨ t = "--activate-profiles".toList then some (.ahead .plain)
  else
    match "--define=".toList.isPrefixOf? t, "-D".toList.isPrefixOf? t,
      "-pl=".toList.isPrefixOf? t, "--projects=".toList.isPrefixOf? t with
    | some text, _, _, _ => some (.alone .define text)
    | _, some text, _, _ => some (.alone .define text)
    | _, _, some text, _ => some (.alone .select text)
    | _, _, _, some text => some (.alone .select text)
    | none, none, none, none =>
      if t.head? = some '-' ∧ t ∉ ["-am", "--also-make", "-B", "-U", "-q"].map String.toList then
        none
      else some (.alone .plain t)

def sample : Maven where
  form := sampleForm
  argument t := decide (t.head? ≠ some '-')
  name text := text.takeWhile (· ≠ '=')
  value text := if '=' ∈ text then (text.dropWhile (· ≠ '=')).tail else "true".toList
  form_definition text some_ := by
    cases text with
    | nil => exact absurd rfl some_
    | cons c cs => simp [sampleForm, definition, List.isPrefixOf?]
  form_define := by decide
  form_select := by decide
  form_selected text head among := by
    simp only [List.mem_cons, List.not_mem_nil, or_false] at among
    rcases among with rfl | rfl <;> simp [sampleForm, List.isPrefixOf?]
  form_also t also := by
    simp only [alsoMake, Bool.or_eq_true, decide_eq_true_eq] at also
    rcases also with rfl | rfl <;> decide
  argument_form t takes := by
    have word : t.head? ≠ some '-' := of_decide_eq_true takes
    refine .inr ?_
    cases t with
    | nil => rfl
    | cons c cs =>
        have other : c ≠ '-' := fun same => word (congrArg some same)
        simp [sampleForm, List.isPrefixOf?, other, other.symm]
  argument_also t also := by
    simp only [alsoMake, Bool.or_eq_true, decide_eq_true_eq] at also
    rcases also with rfl | rfl <;> decide
  name_value p tidy text := by
    refine ⟨takeWhile_assigned (unassigned_of_clean tidy) text, ?_⟩
    have front := takeWhile_assigned (unassigned_of_clean tidy) text
    have whole := List.takeWhile_append_dropWhile (p := (· ≠ '=')) (l := p ++ '=' :: text)
    rw [front, List.append_cancel_left_eq] at whole
    rw [if_pos (by simp), whole, List.tail_cons]
  name_clean p tidy := by
    have free := unassigned_of_clean tidy
    refine ⟨List.takeWhile_eq_self_iff.mpr fun c inside => ?_, if_neg free⟩
    exact decide_eq_true fun same => free (same ▸ inside)

/-! The operations. -/

section Steps
variable {p q x : Token} {front ts : List Token}

theorem without_own (tidy : clean p = true)
    (unknown : ∀ t ∈ front, (Subject.property p).remover.owns t = false) :
    withoutMavenProperty (front ++ (assigned p ++ x) :: ts) p =
      front ++ withoutMavenProperty ts p := by
  have joined : (Subject.property p).remover.joined (assigned p ++ x) = true :=
    (isPrefixOf_iff _ _).mpr ⟨x, rfl⟩
  rw [withoutMavenProperty, Remover.without_append unknown, Remover.without,
    if_neg (by simp [bare_assigned tidy]), if_pos joined]
  rfl

theorem without_unknown (unknown : ∀ t ∈ front, (Subject.property p).remover.owns t = false) :
    withoutMavenProperty front p = front := by
  have same := Remover.without_append unknown []
  rw [List.append_nil] at same
  exact same.trans (List.append_nil front)

theorem value_own (unknown : ∀ t ∈ front, (Subject.property p).remover.owns t = false) :
    mavenPropertyValue (front ++ (assigned p ++ x) :: ts) p = x := by
  have none_ : front.findSome? (assigned p).isPrefixOf? = none := by
    refine List.findSome?_eq_none_iff.mpr fun t inside => ?_
    cases found : (assigned p).isPrefixOf? t with
    | none => rfl
    | some rest =>
        have own : (Subject.property p).remover.owns t = true :=
          owns_property.mpr (.inr ⟨rest, (List.isPrefixOf?_eq_some_iff_append_eq.mp found).symm⟩)
        rw [unknown t inside] at own
        cases own
  have here : (assigned p).isPrefixOf? (assigned p ++ x) = some x :=
    List.isPrefixOf?_eq_some_iff_append_eq.mpr rfl
  rw [mavenPropertyValue, List.findSome?_append, none_, List.findSome?_cons, here]
  rfl

end Steps

/-- A plan of no step. -/
theorem replacing_nothing : Replacing ⟨[], []⟩ [] where
  tidy := by constructor <;> decide
  defaults := rfl

namespace Operation
variable {letter : Char → Bool}

/-- The operations carry out their plans. -/
theorem apply_eq_plan (op : Operation) (cmd : List Token) :
    op.apply letter cmd = (op.plan letter).apply cmd := by
  cases op with
  | ciGates coverageGate mutationGate =>
      simp [apply, withCiGateProperties, plan, Plan.apply, Plan.stages, Step.stage, Step.values,
        Stage.runAll, Stage.run, Default.addAll, withoutMavenProperty, Subject.written]
  | targetSources sources =>
      by_cases none_ : sources = []
      · rw [apply, withTargetSources, if_pos none_, plan, if_pos none_]
        rfl
      · rw [apply, withTargetSources, if_neg none_, plan, if_neg none_]
        simp [Plan.apply, Plan.stages, Step.stage, Step.values, Stage.runAll, Stage.run,
          Default.addAll, withoutMavenProperty, Subject.written]
  | changedModules modules =>
      by_cases none_ : modules = []
      · rw [apply, withChangedModules, if_pos none_, plan, if_pos none_]
        rfl
      · rw [apply, withChangedModules, if_neg none_, plan, if_neg none_]
        rfl
  | selectedTestClasses kept excluded =>
      by_cases carried : carries letter kept excluded = true
      · rw [apply, withSelectedTestClasses, if_pos carried, plan, if_pos carried]
        rfl
      · rw [apply, withSelectedTestClasses, if_neg carried, plan, if_neg carried]
        rfl
  | selectedTestFile inventoryFile excluded =>
      by_cases none_ : excludable letter excluded = []
      · rw [apply, withSelectedTestFile, if_pos none_, plan, if_pos none_]
        rfl
      · rw [apply, withSelectedTestFile, if_neg none_, plan, if_neg none_]
        simp [Plan.apply, Plan.stages, Step.stage, Step.values, Stage.runAll, Stage.run,
          Default.addAll, withoutMavenProperty, Subject.written, withExcludedClasses, excludedStep]

/-- Written after what the plan does not know, the values are written again. -/
def Steady (plan : Plan) (cmd : List Token) : Prop :=
  ∀ rest, (∀ t ∈ rest, Stage.owned plan.stages t = false) →
    Plan.writtenBy plan.steps (rest ++ Stage.freshes plan.stages cmd) =
      Plan.writtenBy plan.steps cmd

/-- The plan replaces properties, and writes the same the second time. -/
def Sound (plan : Plan) : Prop := (∃ flags, Replacing plan flags) ∧ ∀ cmd, Steady plan cmd

theorem sound_nothing : Sound ⟨[], []⟩ := ⟨⟨[], replacing_nothing⟩, fun _ _ _ => rfl⟩

theorem sound_gates (coverageGate mutationGate : PyFloat) :
    Sound ((ciGates coverageGate mutationGate).plan letter) := by
  refine ⟨⟨[], ⟨?_, rfl⟩⟩, fun _ _ _ => rfl⟩
  change Tidy [(.property coverageGateProperty, []), (.property mutationGateProperty,
    [.property coverageGateProperty, .property mutationGateProperty])] []
  constructor <;> decide

theorem sound_targets (sources : List Token) : Sound ((targetSources sources).plan letter) := by
  rw [plan]
  split_ifs
  · exact sound_nothing
  refine ⟨⟨[], ⟨?_, rfl⟩⟩, fun _ _ _ => rfl⟩
  change Tidy [(.property targetSource, []), (.property Arguments.targetSources,
    [.property Arguments.targetSources])] []
  constructor <;> decide

theorem unknown_of_unowned {plan : Plan} {s : Subject} (known : s ∈ plan.subjects) {t : Token}
    (unowned : Stage.owned plan.stages t = false) : s.remover.owns t = false := by
  refine Bool.eq_false_iff.mpr fun own => ?_
  rw [Replacing.owned_iff.mpr ⟨s, known, own⟩] at unowned
  cases unowned

theorem tidy_test : clean test = true := by decide
theorem tidy_includes : clean includes = true := by decide
theorem tidy_includesFile : clean includesFile = true := by decide
theorem tidy_excluded : clean excludedTestClasses = true := by decide

theorem other_unknown {p q x : Token} (tidy : clean p = true) (other : clean q = true)
    (differ : q ≠ p) : ∀ t ∈ [assigned p ++ x], (Subject.property q).remover.owns t = false := by
  intro t inside
  rw [List.mem_singleton.mp inside]
  exact Bool.eq_false_iff.mpr fun own => differ ((owns_assigned tidy other).mp own)

/-- The list of the excluded classes, read where it was written, is written again. -/
theorem excluded_again {letter : Char → Bool} {excluded : List String} {cmd earlier : List Token}
    (read : mavenPropertyValue cmd excludedTestClasses =
      mergedCsvText (mavenPropertyValue earlier excludedTestClasses)
        (excludable letter excluded)) :
    (excludedStep (excludable letter excluded)).values cmd ++ [] =
      (excludedStep (excludable letter excluded)).values earlier ++ [] := by
  have same : mergedCsvText (mavenPropertyValue cmd excludedTestClasses)
      (excludable letter excluded) =
        mergedCsvText (mavenPropertyValue earlier excludedTestClasses)
          (excludable letter excluded) := by
    rw [read, mergedCsvText_again fun item inside => csvItem_of_excludable inside]
  exact congrArg (fun value => [(Subject.property excludedTestClasses, value)]) same

theorem sound_classes (kept excluded : List String) :
    Sound ((selectedTestClasses kept excluded).plan letter) := by
  rw [plan]
  split_ifs
  swap
  · exact sound_nothing
  refine ⟨⟨[failIfNoTests], ⟨?_, rfl⟩⟩, fun cmd rest unowned => ?_⟩
  · change Tidy [(.property test, [.property test]),
      (.property excludedTestClasses, [.property excludedTestClasses])] [failIfNoTests]
    constructor <;> decide
  · have tests : ∀ t ∈ rest, (Subject.property test).remover.owns t = false := fun t inside =>
      unknown_of_unowned List.mem_cons_self (unowned t inside)
    have classes : ∀ t ∈ rest, (Subject.property excludedTestClasses).remover.owns t = false :=
      fun t inside => unknown_of_unowned (List.mem_cons_of_mem _ List.mem_cons_self)
        (unowned t inside)
    refine congrArg (List.cons _) (excluded_again ?_)
    -- the command line of the second step: the list of the first time, and the new selector
    change mavenPropertyValue (withoutMavenProperty (rest ++ (assigned test ++ _) ::
      [assigned excludedTestClasses ++ _]) test ++ [_]) excludedTestClasses = _
    rw [without_own tidy_test tests, without_unknown (other_unknown tidy_excluded tidy_test
      (by decide)), List.append_assoc]
    exact value_own classes

theorem sound_file (inventoryFile : Token) (excluded : List String) :
    Sound ((selectedTestFile inventoryFile excluded).plan letter) := by
  rw [plan]
  split_ifs
  · exact sound_nothing
  refine ⟨⟨[failIfNoTests, failIfNoSpecifiedTests], ⟨?_, rfl⟩⟩, fun cmd rest unowned => ?_⟩
  · change Tidy [(.property test, []), (.property includes, []),
      (.property includesFile, [.property includes, .property includesFile]),
      (.property excludedTestClasses, [.property excludedTestClasses])]
      [failIfNoTests, failIfNoSpecifiedTests]
    constructor <;> decide
  · have known : ∀ s ∈ [Subject.property test, .property includes, .property includesFile,
        .property excludedTestClasses], ∀ t ∈ rest, s.remover.owns t = false :=
      fun s among t inside => unknown_of_unowned among (unowned t inside)
    refine congrArg (fun later => _ :: _ :: later) (excluded_again ?_)
    change mavenPropertyValue (withoutMavenProperty (withoutMavenProperty (withoutMavenProperty
      (rest ++ (assigned includes ++ _) :: (assigned includesFile ++ inventoryFile) ::
        [assigned excludedTestClasses ++ _]) test ++ []) includes ++ []) includesFile ++ [_, _])
      excludedTestClasses = _
    have tests : ∀ x y z, ∀ t ∈ rest ++ (assigned includes ++ x) :: (assigned includesFile ++ y) ::
        [assigned excludedTestClasses ++ z], (Subject.property test).remover.owns t = false := by
      intro x y z t inside
      simp only [List.mem_append, List.mem_cons, List.not_mem_nil, or_false] at inside
      rcases inside with old | rfl | rfl | rfl
      · exact known _ List.mem_cons_self t old
      · exact other_unknown tidy_includes tidy_test (by decide) _ List.mem_cons_self
      · exact other_unknown tidy_includesFile tidy_test (by decide) _ List.mem_cons_self
      · exact other_unknown tidy_excluded tidy_test (by decide) _ List.mem_cons_self
    have patterns : ∀ y z, ∀ t ∈ (assigned includesFile ++ y) ::
        [assigned excludedTestClasses ++ z],
          (Subject.property includes).remover.owns t = false := by
      intro y z t inside
      simp only [List.mem_cons, List.not_mem_nil, or_false] at inside
      rcases inside with rfl | rfl
      · exact other_unknown tidy_includesFile tidy_includes (by decide) _ List.mem_cons_self
      · exact other_unknown tidy_excluded tidy_includes (by decide) _ List.mem_cons_self
    rw [List.append_nil, List.append_nil, without_unknown (tests _ _ _),
      without_own tidy_includes (known _ (by simp)), without_unknown (patterns _ _),
      without_own tidy_includesFile (known _ (by simp)),
      without_unknown (other_unknown tidy_excluded tidy_includesFile (by decide)),
      List.append_assoc]
    exact value_own (known _ (by simp))

variable {m : Maven} {cmd : List Token} {items : List Item}

theorem right_iff_of_sound {op : Operation} (sound : Sound (op.plan letter))
    (accepted : m.read none cmd = some items) :
    (Legible m (op.plan letter) cmd items → op.Right letter m cmd items) ∧
      (Unmixed m (op.plan letter) cmd items → op.Right letter m cmd items →
        Legible m (op.plan letter) cmd items) := by
  obtain ⟨⟨flags, replacing⟩, steady⟩ := sound
  have same : op.apply letter = (op.plan letter).apply := funext op.apply_eq_plan
  rw [Right, same]
  refine ⟨fun legible => replacing.right_of_legible accepted legible (steady cmd), ?_⟩
  rintro unmixed ⟨out, read, right⟩
  exact replacing.legible_of_right accepted unmixed read right

/-- A command line that Maven accepts is rewritten as it should be when it is legible, and only
then unless a bare definition stands beside one that the removers do not know. -/
theorem right_of_legible_iff (op : Operation) (accepted : m.read none cmd = some items) :
    (Legible m (op.plan letter) cmd items → op.Right letter m cmd items) ∧
      (Unmixed m (op.plan letter) cmd items → op.Right letter m cmd items →
        Legible m (op.plan letter) cmd items) := by
  cases op with
  | ciGates coverageGate mutationGate =>
      exact right_iff_of_sound (sound_gates coverageGate mutationGate) accepted
  | targetSources sources => exact right_iff_of_sound (sound_targets sources) accepted
  | changedModules modules =>
      by_cases none_ : modules = []
      · subst none_
        exact right_iff_of_sound sound_nothing accepted
      · have plan_ : (changedModules modules).plan letter = projectsPlan (joined modules) := by
          rw [plan, if_neg none_]
          rfl
        have same : (changedModules modules).apply letter =
            (projectsPlan (joined modules)).apply :=
          plan_ ▸ funext (changedModules modules).apply_eq_plan
        rw [Right, same, plan_]
        exact ⟨(Projects.legible_iff accepted).mpr, fun _ => (Projects.legible_iff accepted).mp⟩
  | selectedTestClasses kept excluded =>
      exact right_iff_of_sound (sound_classes kept excluded) accepted
  | selectedTestFile inventoryFile excluded =>
      exact right_iff_of_sound (sound_file inventoryFile excluded) accepted

/-- The gates of 95 and 100 percent. -/
def gates : Operation := .ciGates (.finite 95) (.finite 100)

/-- `mvn` with the coverage gate set by so many arguments, and the goal `verify`. -/
def verify (gate : List String) : List Token :=
  ("mvn" :: gate ++ ["verify"]).map String.toList

def attached : List Token := verify ["-Dtest.enforcement.diff.coverage.minLines=0"]
def detached : List Token := verify ["-D", "test.enforcement.diff.coverage.minLines=0"]
def bare : List Token := verify ["-Dtest.enforcement.diff.coverage.minLines"]

theorem attached_right : ∃ items, sample.read none attached = some items ∧
    gates.Right (fun _ => false) sample attached items := by
  have sound : Sound (gates.plan fun _ => false) := sound_gates _ _
  obtain ⟨⟨flags, replacing⟩, -⟩ := sound
  have accepts : (sample.read none attached).isSome = true := by decide +kernel
  obtain ⟨items, accepted⟩ := Option.isSome_iff_exists.mp accepts
  have spelled : ∀ i ∈ (sample.read none attached).getD [],
      ∀ s ∈ (gates.plan fun _ => false).subjects,
        i.subject sample = some s → s.remover.owns i.head = true := by decide +kernel
  rw [accepted] at spelled
  refine ⟨items, accepted, (right_of_legible_iff gates accepted).1
    ⟨spelled, fun _ => ?_, rfl, fun d known => absurd known List.not_mem_nil, fun x setting => ?_⟩⟩
  · exact Stage.spared_of_no_bare replacing.plain (by decide +kernel)
  · obtain ⟨p, same, -⟩ := replacing.property (replacing.key_known setting)
    cases same

/-- A definition that stands apart from its option keeps its value beside the gate's, and a bare
one takes away the goal after it. -/
theorem gates_wrong :
    (∃ items, sample.read none detached = some items ∧
      ¬ gates.Right (fun _ => false) sample detached items) ∧
    ∃ items, sample.read none bare = some items ∧
      ¬ gates.Right (fun _ => false) sample bare items := by
  constructor
  · refine ⟨(sample.read none detached).getD [], by decide +kernel, ?_⟩
    rintro ⟨out, read, right⟩
    have twice : (sample.read none (gates.apply (fun _ => false) detached)).map
        (fun o => (sample.valuesOf (.property coverageGateProperty) o).length) = some 2 := by
      decide +kernel
    rw [read, Option.map_some, right.once _ _ List.mem_cons_self] at twice
    exact absurd (Option.some.inj twice) (by decide)
  · refine ⟨(sample.read none bare).getD [], by decide +kernel, ?_⟩
    rintro ⟨out, read, right⟩
    have lost : (sample.read none (gates.apply (fun _ => false) bare)).map
        (fun o => (o.filter (!(gates.plan fun _ => false).replaces sample ·)).length) =
        some 1 := by decide +kernel
    have both : (((sample.read none bare).getD []).filter
        (!(gates.plan fun _ => false).replaces sample ·)).length = 2 := by decide +kernel
    rw [read, Option.map_some, right.kept, both] at lost
    exact absurd (Option.some.inj lost) (by decide)

end Operation

end Uta.JavaGate.Arguments
