/- What Maven reads of a command line from which options are removed and to which some are
appended. -/
import Uta.JavaGate.Arguments

namespace Uta.JavaGate.Arguments
open Uta.Lib

/-! The removers. -/

section Removers
variable {p q t x : Token}

theorem ne_nil_of_clean (tidy : clean p = true) : p ≠ [] := by
  simp only [clean, Bool.and_eq_true, decide_eq_true_eq] at tidy
  exact tidy.1

theorem unassigned_of_clean (tidy : clean p = true) : '=' ∉ p := by
  intro inside
  simp only [clean, Bool.and_eq_true, List.all_eq_true] at tidy
  exact absurd (tidy.2 '=' inside) (by decide)

theorem takeWhile_assigned (free : '=' ∉ p) (x : Token) :
    (p ++ '=' :: x).takeWhile (· ≠ '=') = p := by
  have all : ∀ c ∈ p, decide (c ≠ '=') = true := fun c inside =>
    decide_eq_true fun same => free (same ▸ inside)
  rw [List.takeWhile_append_of_pos all, List.takeWhile_cons_of_neg (by simp), List.append_nil]

theorem isPrefixOf_iff (h t : Token) : h.isPrefixOf t = true ↔ ∃ x, t = h ++ x := by
  rw [List.isPrefixOf_iff_prefix]
  exact exists_congr fun x => eq_comm

theorem owns_property : (Subject.property p).remover.owns t = true ↔
    t = definition p ∨ ∃ x, t = assigned p ++ x := by
  simp only [Subject.remover, Remover.owns, Bool.or_eq_true, decide_eq_true_eq, isPrefixOf_iff]

theorem assigned_append (p x : Token) : assigned p ++ x = definition (p ++ '=' :: x) := by
  simp [assigned, definition]

/-- A definition with a value is known to the remover of its own property only. -/
theorem owns_assigned (tidy : clean p = true) (other : clean q = true) :
    (Subject.property q).remover.owns (assigned p ++ x) = true ↔ q = p := by
  rw [owns_property]
  constructor
  · rintro (bare | ⟨y, same⟩)
    · rw [assigned_append] at bare
      have inside : '=' ∈ q := by
        have texts : p ++ '=' :: x = q := by simpa [definition] using bare
        rw [← texts]
        simp
      exact absurd inside (unassigned_of_clean other)
    · rw [assigned_append, assigned_append] at same
      have texts : p ++ '=' :: x = q ++ '=' :: y := by simpa [definition] using same
      have names := congrArg (List.takeWhile (· ≠ '=')) texts
      rw [takeWhile_assigned (unassigned_of_clean tidy),
        takeWhile_assigned (unassigned_of_clean other)] at names
      exact names.symm
  · rintro rfl
    exact .inr ⟨x, rfl⟩

theorem bare_assigned (other : clean q = true) :
    (Subject.property q).remover.bare (assigned p ++ x) = false := by
  refine decide_eq_false fun same => ?_
  rw [assigned_append] at same
  have texts : p ++ '=' :: x = q := by simpa [definition] using same
  exact unassigned_of_clean other (by rw [← texts]; simp)

variable {m : Maven}

/-- Maven reads what a remover knows as a definition of the property. -/
theorem form_of_owns (tidy : clean p = true) (own : (Subject.property p).remover.owns t = true) :
    (∃ text, m.form t = some (.alone .define text) ∧ m.name text = p) ∧ m.argument t = false := by
  have some_ := ne_nil_of_clean tidy
  have read : ∃ text, m.form t = some (.alone .define text) ∧ m.name text = p := by
    rcases owns_property.mp own with rfl | ⟨x, rfl⟩
    · exact ⟨p, m.form_definition p some_, (m.name_clean p tidy).1⟩
    · rw [assigned_append]
      exact ⟨_, m.form_definition _ (by simp), (m.name_value p tidy x).1⟩
  refine ⟨read, Bool.eq_false_iff.mpr fun takes => ?_⟩
  obtain ⟨text, form, -⟩ := read
  rcases m.argument_form t takes with none_ | plain
  · rw [form] at none_
    cases none_
  · rw [form] at plain
    cases plain

theorem owns_projects : Subject.projects.remover.owns t = true ↔
    t = "-pl".toList ∨ t = "--projects".toList ∨
      (∃ x, t = "-pl=".toList ++ x) ∨ ∃ x, t = "--projects=".toList ++ x := by
  simp only [Subject.remover, Remover.owns, Bool.or_eq_true, decide_eq_true_eq, isPrefixOf_iff,
    or_assoc]

end Removers

/-! What Maven reads. -/

namespace Maven
variable {m : Maven} {pending : Option (Token × Role)} {cmd rest : List Token}
  {items out : List Item} {i : Item}

theorem read_append (accepted : m.read pending cmd = some items) :
    m.read pending (cmd ++ rest) = (m.read none rest).map (items ++ ·) := by
  induction cmd generalizing pending items with
  | nil =>
      cases pending with
      | some _ => cases accepted
      | none =>
          cases accepted
          simp
  | cons t ts ih =>
      rw [List.cons_append]
      rcases pending with _ | ⟨u, role⟩
      · rw [read] at accepted ⊢
        split at accepted
        · cases accepted
        · obtain ⟨later, read, rfl⟩ := Option.map_eq_some_iff.mp accepted
          rw [ih read, Option.map_map]
          rfl
        · exact ih accepted
      · rw [read] at accepted ⊢
        split_ifs at accepted with takes
        obtain ⟨later, read, rfl⟩ := Option.map_eq_some_iff.mp accepted
        rw [if_pos takes, ih read, Option.map_map]
        rfl

theorem tokens_read (accepted : m.read pending cmd = some items) :
    items.flatMap Item.tokens = (pending.map Prod.fst).toList ++ cmd := by
  induction cmd generalizing pending items with
  | nil =>
      cases pending with
      | some _ => cases accepted
      | none =>
          cases accepted
          rfl
  | cons t ts ih =>
      rcases pending with _ | ⟨u, role⟩
      · rw [read] at accepted
        split at accepted
        · cases accepted
        · obtain ⟨later, read, rfl⟩ := Option.map_eq_some_iff.mp accepted
          rw [List.flatMap_cons, ih read]
          rfl
        · rw [ih accepted]
          rfl
      · rw [read] at accepted
        split_ifs at accepted with takes
        obtain ⟨later, read, rfl⟩ := Option.map_eq_some_iff.mp accepted
        rw [List.flatMap_cons, ih read]
        rfl

/-- The item is what its first argument says. -/
def Formed (m : Maven) (i : Item) : Prop :=
  (m.form i.head = some (.alone i.role i.text) ∧ i.tail = none) ∨
    (m.form i.head = some (.ahead i.role) ∧ i.tail = some i.text ∧ m.argument i.text = true)

theorem formed_of_read (accepted : m.read pending cmd = some items)
    (waits : ∀ t role, pending = some (t, role) → m.form t = some (.ahead role)) :
    ∀ i ∈ items, m.Formed i := by
  induction cmd generalizing pending items with
  | nil =>
      cases pending with
      | some _ => cases accepted
      | none =>
          cases accepted
          exact fun i inside => absurd inside List.not_mem_nil
  | cons t ts ih =>
      have none_ : ∀ u role, (none : Option (Token × Role)) = some (u, role) →
          m.form u = some (.ahead role) := fun u role same => nomatch same
      rcases pending with _ | ⟨u, role⟩
      · rw [read] at accepted
        split at accepted
        next => cases accepted
        next role text form =>
          obtain ⟨later, read, rfl⟩ := Option.map_eq_some_iff.mp accepted
          exact List.forall_mem_cons.mpr ⟨.inl ⟨form, rfl⟩, ih read none_⟩
        next role form =>
          refine ih accepted fun u role same => ?_
          cases same
          exact form
      · rw [read] at accepted
        split_ifs at accepted with takes
        obtain ⟨later, read, rfl⟩ := Option.map_eq_some_iff.mp accepted
        exact List.forall_mem_cons.mpr ⟨.inr ⟨waits u role rfl, rfl, takes⟩, ih read none_⟩

/-- Without arguments that Maven reads alone, the other items stay. -/
theorem read_filter {goes : Token → Bool}
    (alone : ∀ t, goes t = true →
      m.argument t = false ∧ ∃ role text, m.form t = some (.alone role text))
    (accepted : m.read pending cmd = some items)
    (waits : ∀ t role, pending = some (t, role) → goes t = false) :
    m.read pending (cmd.filter (!goes ·)) = some (items.filter (!goes ·.head)) := by
  induction cmd generalizing pending items with
  | nil =>
      cases pending with
      | some _ => cases accepted
      | none =>
          cases accepted
          rfl
  | cons t ts ih =>
      have none_ : ∀ u role, (none : Option (Token × Role)) = some (u, role) →
          goes u = false := fun u role same => nomatch same
      rcases pending with _ | ⟨u, role⟩
      · rw [read] at accepted
        split at accepted
        next => cases accepted
        next role text form =>
          obtain ⟨later, read_, rfl⟩ := Option.map_eq_some_iff.mp accepted
          rw [List.filter_cons, List.filter_cons]
          by_cases gone : goes t = true
          · rw [if_neg (by simp [gone]), if_neg (by simp [gone])]
            exact ih read_ none_
          · rw [if_pos (by simp [gone]), if_pos (by simp [gone]), read, form]
            dsimp only
            rw [ih read_ none_, Option.map_some]
        next role form =>
          have stays : goes t = false := Bool.eq_false_iff.mpr fun gone => by
            obtain ⟨-, other, text, same⟩ := alone t gone
            rw [form] at same
            cases same
          rw [List.filter_cons_of_pos (by simp [stays]), read, form]
          refine ih accepted fun u role same => ?_
          cases same
          exact stays
      · rw [read] at accepted
        split_ifs at accepted with takes
        obtain ⟨later, read_, rfl⟩ := Option.map_eq_some_iff.mp accepted
        have stays : goes t = false := Bool.eq_false_iff.mpr fun gone => by
          rw [(alone t gone).1] at takes
          cases takes
        have head := waits u role rfl
        rw [List.filter_cons_of_pos (by simp [stays]), List.filter_cons_of_pos (by simp [head]),
          read, if_pos takes, ih read_ none_, Option.map_some]

/-- Items that are formed as Maven reads them are read as they are. -/
theorem read_tokens (formed : ∀ i ∈ items, m.Formed i) :
    m.read none (items.flatMap Item.tokens) = some items := by
  induction items with
  | nil => rfl
  | cons i rest ih =>
      have later := ih fun j after => formed j (List.mem_cons_of_mem i after)
      have here := formed i List.mem_cons_self
      obtain ⟨head, tail, role, text⟩ := i
      rw [List.flatMap_cons, Item.tokens]
      dsimp only [Formed] at here ⊢
      rcases here with ⟨form, rfl⟩ | ⟨form, rfl, takes⟩
      · rw [Option.toList_none, List.cons_append, List.nil_append, read, form]
        dsimp only
        rw [later, Option.map_some]
      · rw [Option.toList_some, List.cons_append, List.cons_append, List.nil_append, read, form]
        dsimp only
        rw [read, if_pos takes, later, Option.map_some]

theorem valuesOf_append (s : Subject) (a b : List Item) :
    m.valuesOf s (a ++ b) = m.valuesOf s a ++ m.valuesOf s b := by
  rw [valuesOf, List.filter_append, List.map_append]
  rfl

theorem valuesOf_eq_nil {s : Subject} (none_ : ∀ i ∈ items, i.subject m ≠ some s) :
    m.valuesOf s items = [] := by
  rw [valuesOf, List.filter_eq_nil_iff.mpr fun i inside => by simpa using none_ i inside,
    List.map_nil]

theorem exists_of_valuesOf {s : Subject} {x : Token} (some_ : x ∈ m.valuesOf s items) :
    ∃ i ∈ items, i.subject m = some s := by
  obtain ⟨i, inside, -⟩ := List.mem_map.mp some_
  exact ⟨i, (List.mem_filter.mp inside).1, by simpa using (List.mem_filter.mp inside).2⟩

theorem valuesOf_ne_nil {s : Subject} (inside : i ∈ items) (own : i.subject m = some s) :
    m.valuesOf s items ≠ [] :=
  List.ne_nil_of_mem (List.mem_map_of_mem (List.mem_filter.mpr ⟨inside, by simpa using own⟩))

end Maven

/-! What is written. -/

/-- The item that gives a subject a value. -/
def Item.of : Subject × Token → Item
  | (.property p, x) => ⟨assigned p ++ x, none, .define, p ++ '=' :: x⟩
  | (.projects, x) => ⟨"-pl".toList, some x, .select, x⟩

/-- The setting can be read. -/
def Readable (m : Maven) : Subject × Token → Prop
  | (.property p, _) => clean p = true
  | (.projects, x) => m.argument x = true

section Written
variable {m : Maven} {s : Subject} {y : Token} {x : Subject × Token}
  {written : List (Subject × Token)}

theorem tokens_of (x : Subject × Token) : (Item.of x).tokens = x.1.written x.2 := by
  rcases x with ⟨_ | _, y⟩ <;> rfl

theorem formed_of (readable : Readable m x) : m.Formed (Item.of x) := by
  rcases x with ⟨p | _, y⟩
  · refine .inl ⟨?_, rfl⟩
    change m.form (assigned p ++ y) = _
    rw [assigned_append]
    exact m.form_definition _ (by simp)
  · exact .inr ⟨m.form_select _ List.mem_cons_self, rfl, readable⟩

theorem subject_of (readable : Readable m x) : (Item.of x).subject m = some x.1 := by
  rcases x with ⟨p | _, y⟩
  · exact congrArg (some ∘ Subject.property) (m.name_value p readable y).1
  · rfl

theorem given_of (readable : Readable m x) : (Item.of x).given m = x.2 := by
  rcases x with ⟨p | _, y⟩
  · exact (m.name_value p readable y).2
  · rfl

theorem valuesOf_of (readable : ∀ x ∈ written, Readable m x) :
    m.valuesOf s (written.map Item.of) = (written.filter (·.1 = s)).map Prod.snd := by
  induction written with
  | nil => rfl
  | cons x rest ih =>
      have later := ih fun e after => readable e (List.mem_cons_of_mem x after)
      have here := readable x List.mem_cons_self
      rw [Maven.valuesOf] at later ⊢
      rw [List.map_cons, List.filter_cons, List.filter_cons, subject_of here]
      by_cases same : x.1 = s
      · rw [if_pos (by simp [same]), if_pos (by simp [same]), List.map_cons, later, given_of here]
        rfl
      · rw [if_neg (by simp [same]), if_neg (by simp [same]), later]

/-- Settings of different subjects give each one value. -/
theorem filter_of_nodup (distinct : (written.map Prod.fst).Nodup) (inside : (s, y) ∈ written) :
    written.filter (·.1 = s) = [(s, y)] := by
  induction written with
  | nil => cases inside
  | cons x rest ih =>
      rw [List.map_cons, List.nodup_cons] at distinct
      rw [List.filter_cons]
      rcases List.mem_cons.mp inside with rfl | later
      · rw [if_pos (by simp), List.filter_eq_nil_iff.mpr]
        intro e after same
        have key : e.1 = s := of_decide_eq_true same
        exact distinct.1 (List.mem_map.mpr ⟨e, after, key⟩)
      · rw [if_neg, ih distinct.2 later]
        intro same
        have key : x.1 = s := of_decide_eq_true same
        exact distinct.1 (List.mem_map.mpr ⟨(s, y), later, key.symm⟩)

theorem eq_of_keys {other : List (Subject × Token)}
    (keys : written.map Prod.fst = other.map Prod.fst) (distinct : (other.map Prod.fst).Nodup)
    (subset : ∀ x ∈ written, x ∈ other) : written = other := by
  induction written generalizing other with
  | nil => exact (List.map_eq_nil_iff.mp keys.symm).symm
  | cons x rest ih =>
      cases other with
      | nil => cases keys
      | cons z others =>
          rw [List.map_cons, List.map_cons, List.cons.injEq] at keys
          rw [List.map_cons, List.nodup_cons] at distinct
          have head : x = z := by
            rcases List.mem_cons.mp (subset x List.mem_cons_self) with same | later
            · exact same
            · exact absurd (List.mem_map.mpr ⟨x, later, keys.1⟩) distinct.1
          subst head
          rw [ih keys.2 distinct.2 fun e after => ?_]
          rcases List.mem_cons.mp (subset e (List.mem_cons_of_mem x after)) with rfl | later
          · refine absurd ?_ distinct.1
            rw [← keys.2]
            exact List.mem_map_of_mem after
          · exact later

end Written

theorem Plan.keys_written (steps : List Step) (cmd : List Token) :
    (Plan.writtenBy steps cmd).map Prod.fst = steps.flatMap fun s => s.sets.map Prod.fst := by
  induction steps generalizing cmd with
  | nil => rfl
  | cons s rest ih =>
      rw [writtenBy, List.map_append, ih, Step.values, List.map_map]
      rfl

theorem Plan.keys_settings (plan : Plan) (cmd : List Token) :
    (plan.settings cmd).map Prod.fst = plan.steps.flatMap fun s => s.sets.map Prod.fst := by
  rw [settings, List.map_flatMap]
  refine List.flatMap_congr fun s _ => ?_
  rw [Step.values, List.map_map]
  rfl

theorem Plan.freshes_written (steps : List Step) (cmd : List Token) :
    Stage.freshes (steps.map (·.stage)) cmd =
      ((Plan.writtenBy steps cmd).map Item.of).flatMap Item.tokens := by
  induction steps generalizing cmd with
  | nil => rfl
  | cons s rest ih =>
      have here : s.stage.fresh cmd = ((s.values cmd).map Item.of).flatMap Item.tokens := by
        rw [List.flatMap_map]
        exact List.flatMap_congr fun x _ => (tokens_of x).symm
      rw [List.map_cons, Stage.freshes, ih, here, writtenBy, List.map_append, List.flatMap_append]

end Uta.JavaGate.Arguments
