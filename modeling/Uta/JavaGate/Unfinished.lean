/- When the class that a Surefire log leaves unfinished is read off it: the pending classes beside the
running ones, and what a module's total takes away. -/
import Mathlib.Data.List.Perm.Basic
import Mathlib.Data.List.Perm.Subperm
import Uta.JavaGate.SurefireLaws

namespace Uta.JavaGate.Surefire
open Uta.Lib

variable {letter : Char → Bool}

/-- The names of the classes that are running. -/
def Board.names (b : Board letter) : List (List Char) := b.running.map fun own => own.2.1

theorem pending_concat (log : List (Line letter)) (line : Line letter) :
    pending (log ++ [line]) = Sign.update (pending log) line.sign := by
  simp [pending]

theorem after_concat (log : List (Line letter)) (line : Line letter) :
    Board.after (log ++ [line]) = (Board.after log).step line := run_append _ _ _ _

theorem interleaves_concat {log : List (Line letter)} {line : Line letter} :
    Interleaves (log ++ [line]) ↔ Interleaves log ∧ (Board.after log).Admits line := by
  unfold Interleaves
  rw [meets_append]
  exact and_congr_right fun _ => and_iff_left trivial

theorem quietTotals_concat {log : List (Line letter)} {line : Line letter} :
    QuietTotals (log ++ [line]) ↔ QuietTotals log ∧ (Board.after log).Quiet line := by
  unfold QuietTotals
  rw [meets_append]
  exact and_congr_right fun _ => and_iff_left trivial

/-! One line. -/

/-- What a line that can come next does to the running classes and is read as. -/
theorem Board.line_cases {b : Board letter} {line : Line letter} (admits : b.Admits line) :
    (∃ module c, line.event? = some (module, .running c) ∧ line.sign = some (.opens c.1) ∧
      (b.step line).running = b.running ++ [(module, c)]) ∨
    (∃ module c named, line.event? = some (module, .completed c named) ∧
      line.sign = (if named then some (.closes c.1) else some .closesLast) ∧
      (module, c) ∈ b.running ∧ (named = true ∨ b.running = [(module, c)]) ∧
      (b.step line).running = b.running.erase (module, c)) ∨
    (∃ module, line.event? = some (module, .total) ∧ line.sign = some .closesLast ∧
      module ∉ b.running.map Prod.fst ∧ (b.step line).running = b.running) ∨
    line.event? = none ∧ line.sign = none ∧ (b.step line).running = b.running := by
  unfold Board.Admits at admits
  unfold Line.sign Board.step
  rcases event : line.event? with _ | ⟨module, c | ⟨c, named⟩ | _⟩ <;> rw [event] at admits
  · exact .inr (.inr (.inr ⟨rfl, rfl, rfl⟩))
  · exact .inl ⟨module, c, rfl, rfl, rfl⟩
  · obtain ⟨member, alone⟩ := admits
    refine .inr (.inl ⟨module, c, named, rfl, ?_, member, alone, rfl⟩)
    cases named <;> rfl
  · obtain ⟨-, idle⟩ := admits
    exact .inr (.inr (.inl ⟨module, rfl, rfl, idle, rfl⟩))

theorem names_erase {running : List (ℕ × TypeName letter)} {module : ℕ} {c : TypeName letter}
    (member : (module, c) ∈ running) :
    ((running.map fun own => own.2.1).erase c.1).Perm
      ((running.erase (module, c)).map fun own => own.2.1) := by
  have apart := (List.perm_cons_erase member).map fun own => own.2.1
  rw [List.map_cons] at apart
  have erased := apart.erase c.1
  rwa [List.erase_cons_head] at erased

theorem dropLast_of_subperm_singleton {α : Type} {l : List α} {a : α} (within : l.Subperm [a]) :
    l.dropLast = [] := by
  have short := within.length_le
  rw [List.length_singleton] at short
  apply List.eq_nil_of_length_eq_zero
  rw [List.length_dropLast]
  omega

/-- The pending classes stay among the running ones. -/
theorem update_subperm {b : Board letter} {line : Line letter} {names : List (List Char)}
    (admits : b.Admits line) (within : names.Subperm b.names) :
    (Sign.update names line.sign).Subperm (b.step line).names := by
  unfold Board.names at within ⊢
  rcases Board.line_cases admits with ⟨module, c, -, sign, running⟩ |
    ⟨module, c, named, -, sign, member, alone, running⟩ | ⟨module, -, sign, -, running⟩ |
    ⟨-, sign, running⟩
  · rw [sign, running, List.map_append]
    exact (List.subperm_append_right _).mpr within
  · rw [sign, running]
    cases named with
    | true => exact (within.erase c.1).trans (names_erase member).subperm
    | false =>
        rw [alone.resolve_left (by decide)] at within
        have none_ : Sign.update names (some .closesLast) = [] := dropLast_of_subperm_singleton within
        rw [if_neg (by decide), none_]
        exact List.nil_subperm
  · rw [sign, running]
    exact (List.dropLast_sublist names).subperm.trans within
  · rw [sign, running]
    exact within

/-- Where a total finds no class running, the pending classes stay the running ones. -/
theorem update_perm {b : Board letter} {line : Line letter} {names : List (List Char)}
    (admits : b.Admits line) (quiet : b.Quiet line) (same : names.Perm b.names) :
    (Sign.update names line.sign).Perm (b.step line).names := by
  unfold Board.names at same ⊢
  rcases Board.line_cases admits with ⟨module, c, -, sign, running⟩ |
    ⟨module, c, named, -, sign, member, alone, running⟩ | ⟨module, event, sign, -, running⟩ |
    ⟨-, sign, running⟩
  · rw [sign, running, List.map_append]
    exact same.append_right _
  · rw [sign, running]
    cases named with
    | true => exact (same.erase c.1).trans (names_erase member)
    | false =>
        rw [alone.resolve_left (by decide)] at same ⊢
        have none_ : Sign.update names (some .closesLast) = [] :=
          dropLast_of_subperm_singleton same.subperm
        rw [if_neg (by decide), none_, List.erase_cons_head]
        rfl
  · have idle : b.running = [] := by
      unfold Board.Quiet at quiet
      rwa [event] at quiet
    rw [idle, List.map_nil, List.perm_nil] at same
    rw [sign, running, idle, same]
    rfl
  · rw [sign, running]
    exact same

/-! Whole logs. -/

theorem pending_subperm (log : List (Line letter)) (interleaves : Interleaves log) :
    (pending log).Subperm (Board.after log).names := by
  induction log using List.reverseRecOn with
  | nil => exact List.nil_subperm
  | append_singleton log line ih =>
      obtain ⟨front, admits⟩ := interleaves_concat.mp interleaves
      rw [pending_concat, after_concat]
      exact update_subperm admits (ih front)

theorem pending_perm (log : List (Line letter)) (interleaves : Interleaves log)
    (quiet : QuietTotals log) : (pending log).Perm (Board.after log).names := by
  induction log using List.reverseRecOn with
  | nil => exact .refl _
  | append_singleton log line ih =>
      obtain ⟨front, admits⟩ := interleaves_concat.mp interleaves
      obtain ⟨quietly, last⟩ := quietTotals_concat.mp quiet
      rw [pending_concat, after_concat]
      exact update_perm admits last (ih front quietly)

theorem starts_concat (c : TypeName letter) (log : List (Line letter)) (line : Line letter) :
    starts c (log ++ [line]) = starts c log + if line.Starts c then 1 else 0 := by
  unfold starts
  rw [List.countP_append, List.countP_singleton]
  simp

theorem ends_concat (c : TypeName letter) (log : List (Line letter)) (line : Line letter) :
    ends c (log ++ [line]) = ends c log + if line.Ends c then 1 else 0 := by
  unfold ends
  rw [List.countP_append, List.countP_singleton]
  simp

/-- A line starts a class, or ends one that is running, or leaves the counts as they are. -/
theorem Board.counts_cases {b : Board letter} {line : Line letter} (admits : b.Admits line)
    (c : TypeName letter) :
    (line.Starts c ∧ ¬ line.Ends c ∧ ((b.step line).running.map Prod.snd).count c =
        (b.running.map Prod.snd).count c + 1) ∨
      (¬ line.Starts c ∧ line.Ends c ∧ ((b.step line).running.map Prod.snd).count c + 1 =
        (b.running.map Prod.snd).count c) ∨
      (¬ line.Starts c ∧ ¬ line.Ends c ∧ ((b.step line).running.map Prod.snd).count c =
        (b.running.map Prod.snd).count c) := by
  unfold Line.Starts Line.Ends
  rcases Board.line_cases admits with ⟨module, d, event, -, running⟩ |
    ⟨module, d, named, event, -, member, -, running⟩ | ⟨module, event, -, -, running⟩ |
    ⟨event, -, running⟩
  · rw [event, running, List.map_append, List.count_append]
    by_cases same : d = c
    · subst same
      exact .inl ⟨rfl, by simp, by simp⟩
    · exact .inr (.inr ⟨by simp [same], by simp, by simp [same]⟩)
  · have apart := ((List.perm_cons_erase member).map Prod.snd).count_eq c
    rw [List.map_cons, List.count_cons] at apart
    rw [event, running]
    by_cases same : d = c
    · subst same
      rw [beq_self_eq_true, if_pos rfl] at apart
      exact .inr (.inl ⟨by simp, ⟨named, rfl⟩, apart.symm⟩)
    · rw [if_neg (by rwa [beq_iff_eq])] at apart
      exact .inr (.inr ⟨by simp, by simp [same], apart.symm⟩)
  · rw [event, running]
    exact .inr (.inr ⟨by simp, by simp, rfl⟩)
  · rw [event, running]
    exact .inr (.inr ⟨by simp, by simp, rfl⟩)

/-- What has been started has completed or is running. -/
theorem starts_eq (log : List (Line letter)) (interleaves : Interleaves log) (c : TypeName letter) :
    starts c log = ends c log + ((Board.after log).running.map Prod.snd).count c := by
  induction log using List.reverseRecOn with
  | nil => rfl
  | append_singleton log line ih =>
      obtain ⟨front, admits⟩ := interleaves_concat.mp interleaves
      have before := ih front
      rw [starts_concat, ends_concat, after_concat]
      rcases Board.counts_cases admits c with ⟨starts_, ends_, count⟩ | ⟨starts_, ends_, count⟩ |
        ⟨starts_, ends_, count⟩
      · rw [if_pos starts_, if_neg ends_]
        omega
      · rw [if_neg starts_, if_pos ends_]
        omega
      · rw [if_neg starts_, if_neg ends_]
        omega

theorem idle_iff {log : List (Line letter)} (interleaves : Interleaves log) :
    (Board.after log).running = [] ↔ ∀ c : TypeName letter, starts c log = ends c log := by
  have total := starts_eq log interleaves
  constructor
  · intro idle c
    have own := total c
    rw [idle] at own
    simpa using own
  · intro all
    by_contra some_
    obtain ⟨own, member⟩ := List.exists_mem_of_ne_nil _ some_
    have runs := List.count_pos_iff.mpr (List.mem_map_of_mem (f := Prod.snd) member)
    have counted := total own.2
    rw [all own.2] at counted
    omega

/-! The answer. -/

/-- A class that is named is one that runs, whatever the totals took away. -/
theorem unfinished_runs {log : List (Line letter)} (interleaves : Interleaves log)
    {name : List Char} (named : unfinishedSurefireClass letter (output log) = some name) :
    ∃ c : TypeName letter, c.1 = name ∧ ends c log < starts c log := by
  rw [unfinished_output] at named
  have runs := (pending_subperm log interleaves).subset (List.mem_of_getLast? named)
  obtain ⟨own, member, rfl⟩ := List.mem_map.mp runs
  refine ⟨own.2, rfl, ?_⟩
  have counted := List.count_pos_iff.mpr (List.mem_map_of_mem (f := Prod.snd) member)
  have total := starts_eq log interleaves own.2
  omega

theorem none_iff {log : List (Line letter)} :
    unfinishedSurefireClass letter (output log) = none ↔ pending log = [] := by
  rw [unfinished_output, List.getLast?_eq_none_iff]

theorem answered_of_perm {log : List (Line letter)} (interleaves : Interleaves log)
    (same : (pending log).Perm (Board.after log).names) : Answered log where
  none_iff := by
    rw [none_iff, ← idle_iff interleaves]
    constructor
    · intro none_
      rw [none_, List.nil_perm] at same
      exact List.map_eq_nil_iff.mp same
    · intro idle
      rw [Board.names, idle, List.map_nil] at same
      exact List.perm_nil.mp same
  unfinished _ := unfinished_runs interleaves

/-- An event on a line of its own, without level or colours. -/
def Line.printed (module : ℕ) (e : Event letter) (d : Details) : Line letter :=
  .event module e d none ((e.text d).map .char) (by
    rw [List.filterMap_map]
    exact List.filterMap_some)

@[simp] theorem Line.printed_event (module : ℕ) (e : Event letter) (d : Details) :
    (Line.printed module e d).event? = some (module, e) := rfl

/-- The figures of a test that passed. -/
def onePassed : Details where
  run := 1
  failures := 0
  errors := 0
  skipped := 0
  seconds := 0
  fraction := 5
  mark := .none
  longUnit := false
  longDash := false

/-- The pending classes can all complete, and nothing else does. -/
theorem exists_drained (log : List (Line letter)) (interleaves : Interleaves log) :
    ∃ later : List (Line letter), (∀ line ∈ later, ∃ c, line.Ends c) ∧
      Interleaves (log ++ later) ∧ pending (log ++ later) = [] ∧
      (Board.after (log ++ later)).running.length + (pending log).length =
        (Board.after log).running.length := by
  induction size : (pending log).length generalizing log with
  | zero =>
      have none_ := List.eq_nil_of_length_eq_zero size
      refine ⟨[], fun line member => absurd member List.not_mem_nil, ?_⟩
      rw [List.append_nil]
      exact ⟨interleaves, none_, rfl⟩
  | succ n ih =>
      obtain ⟨name, more, names⟩ := List.exists_cons_of_length_eq_add_one size
      have runs := (pending_subperm log interleaves).subset (by rw [names]; exact List.mem_cons_self)
      obtain ⟨⟨module, c⟩, member, rfl⟩ := List.mem_map.mp runs
      let line : Line letter := .printed module (.completed c true) onePassed
      have admits : (Board.after log).Admits line := ⟨member, .inl rfl⟩
      have next := interleaves_concat.mpr ⟨interleaves, admits⟩
      have left : pending (log ++ [line]) = more := by
        have sign : line.sign = some (.closes c.1) := rfl
        rw [pending_concat, names, sign]
        exact List.erase_cons_head c.1 more
      have fewer : (Board.after (log ++ [line])).running.length + 1 =
          (Board.after log).running.length := by
        have erased : (Board.after (log ++ [line])).running =
            (Board.after log).running.erase (module, c) := by
          rw [after_concat]
          rfl
        have some_ := List.length_pos_of_mem member
        rw [erased, List.length_erase_of_mem member]
        omega
      have short : more.length = n := by
        rw [names, List.length_cons] at size
        omega
      obtain ⟨later, completes, valid, drained, length⟩ := ih (log ++ [line]) next (by rw [left, short])
      rw [List.append_assoc] at valid drained length
      refine ⟨line :: later, ?_, valid, drained, ?_⟩
      · intro own inside
        rcases List.mem_cons.mp inside with rfl | inside
        · exact ⟨c, true, rfl⟩
        · exact completes own inside
      · rw [List.singleton_append] at length
        omega

theorem completions_quiet {later : List (Line letter)} (completes : ∀ line ∈ later, ∃ c, line.Ends c)
    (b : Board letter) : Meets Board.step Board.Quiet b later := by
  induction later generalizing b with
  | nil => exact trivial
  | cons line later ih =>
      refine ⟨?_, ih (fun own member => completes own (List.mem_cons_of_mem _ member)) _⟩
      obtain ⟨c, named, ends_⟩ := completes line List.mem_cons_self
      obtain ⟨⟨module, e⟩, event, rfl⟩ := Option.map_eq_some_iff.mp ends_
      unfold Board.Quiet
      rw [event]
      trivial

theorem AnsweredOnwards.front {log rest : List (Line letter)}
    (answered : AnsweredOnwards (log ++ rest)) : AnsweredOnwards log := by
  rintro done more later rfl completes valid
  exact answered done (more ++ rest) later (List.append_assoc _ _ _) completes valid

/-- A total takes away a class that then runs on unnoticed, unless no class runs. -/
theorem answeredOnwards_iff (log : List (Line letter)) (interleaves : Interleaves log) :
    AnsweredOnwards log ↔ QuietTotals log := by
  constructor
  · intro answered
    induction log using List.reverseRecOn with
    | nil => exact trivial
    | append_singleton log line ih =>
        obtain ⟨front, admits⟩ := interleaves_concat.mp interleaves
        have quiet := ih front answered.front
        refine quietTotals_concat.mpr ⟨quiet, ?_⟩
        rcases Board.line_cases admits with ⟨module, c, event, -, -⟩ |
          ⟨module, c, named, event, -, -, -, -⟩ | ⟨module, event, sign, -, running⟩ | ⟨event, -, -⟩
        · unfold Board.Quiet
          rw [event]
          trivial
        · unfold Board.Quiet
          rw [event]
          trivial
        · unfold Board.Quiet
          rw [event]
          by_contra busy
          -- the total takes the last pending class; once the others have completed it runs alone
          obtain ⟨later, completes, valid, drained, length⟩ := exists_drained _ interleaves
          have all := (pending_perm log front quiet).length_eq
          have some_ := List.length_pos_iff.mpr busy
          rw [Board.names, List.length_map] at all
          have taken : pending (log ++ [line]) = (pending log).dropLast := by
            rw [pending_concat, sign]
            rfl
          rw [taken, List.length_dropLast, after_concat, running] at length
          have right := answered (log ++ [line]) [] later (List.append_nil _).symm completes valid
          have idle := (idle_iff valid).mpr (right.none_iff.mp (none_iff.mpr drained))
          rw [idle, List.length_nil] at length
          omega
        · unfold Board.Quiet
          rw [event]
          trivial
  · rintro quiet done rest later rfl completes valid
    have front := ((meets_append Board.step _ _ _).mp quiet).1
    have whole : QuietTotals (done ++ later) :=
      (meets_append Board.step _ _ _).mpr ⟨front, completions_quiet completes _⟩
    exact answered_of_perm valid (pending_perm _ valid whole)

/-! Two modules at once. -/

/-- A class of ASCII letters. -/
def asciiClass (name : List Char)
    (own : name ≠ [] ∧ name.all (isTypeChar fun _ => false) = true) : TypeName fun _ => false :=
  ⟨name, own⟩

/-- The log of a module with one class, which completes. -/
def oneModule : List (Line fun _ => false) :=
  let c := asciiClass ['A', 'T'] (by decide)
  [.printed 0 (.running c) onePassed, .printed 0 (.completed c true) onePassed,
    .printed 0 .total onePassed]

theorem oneModule_answered : Interleaves oneModule ∧ AnsweredOnwards oneModule := by
  have interleaves : Interleaves oneModule := by decide
  have quiet : QuietTotals oneModule := by decide
  exact ⟨interleaves, (answeredOnwards_iff oneModule interleaves).mpr quiet⟩

/-- A class hangs in one module while another module runs its own and ends. -/
def twoModules : List (Line fun _ => false) :=
  let hanging := asciiClass ['A', 'T'] (by decide)
  let other := asciiClass ['B', 'T'] (by decide)
  [.printed 0 (.running hanging) onePassed, .printed 1 (.running other) onePassed,
    .printed 1 (.completed other true) onePassed, .printed 1 .total onePassed]

theorem twoModules_unanswered :
    ¬ ∀ (letter : Char → Bool) (log : List (Line letter)), Interleaves log → Answered log := by
  intro always
  have interleaves : Interleaves twoModules := by decide
  have answered := always _ twoModules interleaves
  have taken : pending twoModules = [] := by decide
  have counts := answered.none_iff.mp (none_iff.mpr taken) (asciiClass ['A', 'T'] (by decide))
  exact absurd counts (by decide)

end Uta.JavaGate.Surefire
