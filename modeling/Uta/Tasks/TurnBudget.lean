/- The turn budget of a task: what a call charges its classes, and what it does when one of
them has no turn left. -/
import Uta.Lib.Json
import Uta.Lib.Run
import Uta.Tasks.Lifecycle
import Mathlib.Logic.Function.Basic

namespace Uta.Tasks
open Uta.Lib

/-- Where the limit of a task is written: its snapshots as `json.loads` reads them (`none` for
what it refuses), and the environment. `pyInt` is `int(value)` of what is not an integer. -/
structure TurnBudget where
  budgetSnapshot : Option Json
  configSnapshot : Option Json
  environment : Option String
  pyInt : Json → Option ℤ

/-- `json_loads`. -/
def jsonLoads : Option Json → List (String × Json)
  | some (.obj fields) => fields
  | _ => []

namespace TurnBudget
variable (b : TurnBudget)

/-- The first of the three that is truthy, else the last. -/
def configured : Option Json :=
  ((Dict.get? (jsonLoads b.budgetSnapshot) "max_llm_turns_per_class").filter Json.truthy) <|>
    ((Dict.get? (jsonLoads b.configSnapshot) "max_llm_turns_per_class").filter Json.truthy) <|>
      b.environment.map .str

/-- `turn_limit`; a value that is no number is no limit. -/
def turnLimit : Option ℤ :=
  match b.configured with
  | none => none
  | some (.int n) => some n
  | some value => b.pyInt value

/-- `turn_limit and turns > turn_limit`. -/
def Exceeds (turns : ℕ) : Prop := ∃ limit ∈ b.turnLimit, limit ≠ 0 ∧ limit < turns

instance (turns : ℕ) : Decidable (b.Exceeds turns) := by
  unfold Exceeds
  cases b.turnLimit with
  | none => exact isFalse (by simp)
  | some limit => exact decidable_of_iff (limit ≠ 0 ∧ limit < turns) (by simp)

end TurnBudget

/-- The rows of the tasks, and `llm_turn_count` of each class row. -/
structure TurnDesk where
  world : World
  turns : ℕ → ℕ

/-- What the calls for a task share. -/
structure TurnGuard where
  taskId : ℕ
  budget : TurnBudget
  quarantineThreshold : ℕ

/-- The arguments of a call. -/
structure TurnCall where
  classFqns : List String
  phase : String

inductive TurnError where
  | budgetExceeded (message : String)
  | task (error : TaskError)

namespace TurnGuard
variable (g : TurnGuard)

/-- `class_rows.get(class_fqn)`. -/
def rowOf (d : TurnDesk) (classFqn : String) : Option ClassTask :=
  if classFqn = "" then none else d.world.findClassTask g.taskId classFqn

/-- `update_class_task(row["id"], llm_turn_count=turns)`. -/
def store (classId turns : ℕ) (d : TurnDesk) : TurnDesk where
  world := d.world.updateClassTask classId {}
  turns := Function.update d.turns classId turns

/-- What a class that is out of budget does to the task. -/
def block (phase message : String) (classId : ℕ) (d : TurnDesk) : Except TurnError Unit × TurnDesk :=
  let stopped := d.world.updateClassTask classId
    { status := some .budgetExceeded, error := some (some message), lastError := some (some message) }
  match (markFailed g.quarantineThreshold g.taskId message "budget_blocked").outcome Stmt.exec stopped with
  | (.error e, world) => (.error (.task e), { d with world })
  | (.ok (), world) =>
    let event : EventArgs := {
      taskId := g.taskId
      classTaskId := some classId
      eventType := "budget_blocked"
      message
      stage := some phase
      severity := "ERROR" }
    (.error (.budgetExceeded message), { d with world := world.addEvent event.row })

/-- The loop over the classes; the rows are those of `start`. -/
def chargeFrom (phase : String) (start : TurnDesk) :
    List String → TurnDesk → Except TurnError Unit × TurnDesk
  | [], d => (.ok (), d)
  | classFqn :: rest, d =>
    match g.rowOf start classFqn with
    | none => chargeFrom phase start rest d
    | some row =>
      let next := start.turns row.id + 1
      if g.budget.Exceeds next then
        let limit := g.budget.turnLimit.getD 0
        g.block phase s!"LLM turn hard cap exceeded for {classFqn}: {next}>{limit}" row.id d
      else chargeFrom phase start rest (store row.id next d)

/-- `check_turn_budget_and_increment`. -/
def checkTurnBudgetAndIncrement (call : TurnCall) (d : TurnDesk) : Except TurnError Unit × TurnDesk :=
  g.chargeFrom call.phase d call.classFqns d

/-- One call after the other. -/
def next (d : TurnDesk) (call : TurnCall) : TurnDesk := (g.checkTurnBudgetAndIncrement call d).2

/-- A class with a row, and with no turn left. -/
def Exhausted (d : TurnDesk) (classFqn : String) : Prop :=
  ∃ row, g.rowOf d classFqn = some row ∧ g.budget.Exceeds (d.turns row.id + 1)

/-- No class with a row is named before the first that has no turn left. -/
def Ordered (d : TurnDesk) (call : TurnCall) : Prop :=
  ∀ before classFqn after, call.classFqns = before ++ classFqn :: after →
    (∀ f ∈ before, ¬ g.Exhausted d f) → g.Exhausted d classFqn → ∀ f ∈ before, g.rowOf d f = none

/-- A call that raises leaves every counter as it was. -/
def Atomic (d : TurnDesk) (call : TurnCall) : Prop :=
  (∃ e, (g.checkTurnBudgetAndIncrement call d).1 = .error e) → (g.next d call).turns = d.turns

/-! One call. -/

/-- What comes before the first of its kind in a list is determined. -/
theorem before_first_unique {P : String → Prop} {a b c d : List String} {x y : String}
    (same : a ++ x :: b = c ++ y :: d) (none_ : ∀ z ∈ a, ¬ P z) (here : P x)
    (none' : ∀ z ∈ c, ¬ P z) (there : P y) : a = c := by
  induction a generalizing c with
  | nil =>
      cases c with
      | nil => rfl
      | cons z c =>
          obtain ⟨rfl, -⟩ := List.cons.inj same
          exact absurd here (none' x (by simp))
  | cons z a ih =>
      cases c with
      | nil =>
          obtain ⟨rfl, -⟩ := List.cons.inj same
          exact absurd there (none_ z (by simp))
      | cons w c =>
          obtain ⟨rfl, rest⟩ := List.cons.inj same
          rw [ih rest (fun v member => none_ v (by simp [member])) fun v member =>
            none' v (by simp [member])]

/-- The counters after the classes of a list have been charged. -/
def charged (start : TurnDesk) (names : List String) (turns : ℕ → ℕ) : ℕ → ℕ :=
  names.foldl (fun t f => match g.rowOf start f with
    | none => t
    | some row => Function.update t row.id (start.turns row.id + 1)) turns

theorem block_turns (phase message : String) (classId : ℕ) (d : TurnDesk) :
    (∃ e, (g.block phase message classId d).1 = .error e) ∧
      (g.block phase message classId d).2.turns = d.turns := by
  unfold block
  dsimp only
  split
  · exact ⟨⟨_, rfl⟩, rfl⟩
  · exact ⟨⟨_, rfl⟩, rfl⟩

variable {g}

/-- A counter that is charged goes up by one from where the call found it. -/
theorem charged_apply (start : TurnDesk) (names : List String) (turns : ℕ → ℕ) (id : ℕ) :
    g.charged start names turns id =
      if ∃ f ∈ names, ∃ row, g.rowOf start f = some row ∧ row.id = id then start.turns id + 1
      else turns id := by
  induction names generalizing turns with
  | nil => simp [charged]
  | cons f rest ih =>
      have step : g.charged start (f :: rest) turns = g.charged start rest
          (match g.rowOf start f with
            | none => turns
            | some row => Function.update turns row.id (start.turns row.id + 1)) := rfl
      rw [step, ih]
      by_cases later : ∃ f ∈ rest, ∃ row, g.rowOf start f = some row ∧ row.id = id
      · obtain ⟨f', member, has⟩ := later
        rw [if_pos ⟨f', member, has⟩, if_pos ⟨f', List.mem_cons_of_mem f member, has⟩]
      · rw [if_neg later]
        cases found : g.rowOf start f with
        | none =>
            refine (if_neg ?_).symm
            rintro ⟨f', member, row, has, same⟩
            rcases List.mem_cons.mp member with rfl | member
            · rw [found] at has
              cases has
            · exact later ⟨f', member, row, has, same⟩
        | some row =>
            dsimp only
            by_cases same : row.id = id
            · rw [if_pos ⟨f, List.mem_cons_self, row, found, same⟩, ← same, Function.update_self]
            · rw [Function.update_of_ne (Ne.symm same)]
              refine (if_neg ?_).symm
              rintro ⟨f', member, row', has, same'⟩
              rcases List.mem_cons.mp member with rfl | member
              · rw [found] at has
                cases has
                exact same same'
              · exact later ⟨f', member, row', has, same'⟩

/-- The loop charges every class, or stops at the first that has no turn left. -/
theorem chargeFrom_cases (phase : String) (start : TurnDesk) (names : List String) (d : TurnDesk) :
    ((∀ f ∈ names, ¬ g.Exhausted start f) ∧ (g.chargeFrom phase start names d).1 = .ok () ∧
      (g.chargeFrom phase start names d).2.turns = g.charged start names d.turns) ∨
    ∃ before classFqn after, names = before ++ classFqn :: after ∧
      (∀ f ∈ before, ¬ g.Exhausted start f) ∧ g.Exhausted start classFqn ∧
      (∃ e, (g.chargeFrom phase start names d).1 = .error e) ∧
      (g.chargeFrom phase start names d).2.turns = g.charged start before d.turns := by
  induction names generalizing d with
  | nil => exact .inl ⟨by simp, rfl, rfl⟩
  | cons f rest ih =>
      rw [chargeFrom]
      cases found : g.rowOf start f with
      | none =>
          have open_ : ¬ g.Exhausted start f := by
            rintro ⟨row, has, -⟩
            rw [found] at has
            cases has
          have skips : ∀ names turns, g.charged start (f :: names) turns = g.charged start names turns := by
            intro names turns
            unfold charged
            rw [List.foldl_cons, found]
          dsimp only
          rcases ih d with ⟨none_, ended, turns⟩ | ⟨before, c, after, rfl, none_, stops, raised, turns⟩
          · exact .inl ⟨List.forall_mem_cons.mpr ⟨open_, none_⟩, ended, by rw [turns, skips]⟩
          · exact .inr ⟨f :: before, c, after, rfl, List.forall_mem_cons.mpr ⟨open_, none_⟩, stops,
              raised, by rw [turns, skips]⟩
      | some row =>
          dsimp only
          by_cases exceeds : g.budget.Exceeds (start.turns row.id + 1)
          · rw [if_pos exceeds]
            obtain ⟨raised, turns⟩ := g.block_turns phase _ row.id d
            exact .inr ⟨[], f, rest, rfl, by simp, ⟨row, found, exceeds⟩, raised, turns⟩
          · rw [if_neg exceeds]
            have open_ : ¬ g.Exhausted start f := by
              rintro ⟨row', has, exceeds'⟩
              rw [found] at has
              cases has
              exact exceeds exceeds'
            have stores : ∀ names, g.charged start (f :: names) d.turns =
                g.charged start names (store row.id (start.turns row.id + 1) d).turns := by
              intro names
              unfold charged
              rw [List.foldl_cons, found]
              rfl
            rcases ih (store row.id (start.turns row.id + 1) d) with ⟨none_, ended, turns⟩ |
              ⟨before, c, after, rfl, none_, stops, raised, turns⟩
            · exact .inl ⟨List.forall_mem_cons.mpr ⟨open_, none_⟩, ended, by rw [turns, stores]⟩
            · exact .inr ⟨f :: before, c, after, rfl, List.forall_mem_cons.mpr ⟨open_, none_⟩, stops,
                raised, by rw [turns, stores]⟩

/-- The counters stay as they are exactly where no class of the list has a row. -/
theorem charged_eq_iff (d : TurnDesk) (names : List String) :
    g.charged d names d.turns = d.turns ↔ ∀ f ∈ names, g.rowOf d f = none := by
  constructor
  · intro same f member
    cases found : g.rowOf d f with
    | none => rfl
    | some row =>
        have up := charged_apply (g := g) d names d.turns row.id
        rw [same, if_pos ⟨f, member, row, found, rfl⟩] at up
        omega
  · intro none_
    funext id
    rw [charged_apply, if_neg]
    rintro ⟨f, member, row, found, -⟩
    rw [none_ f member] at found
    cases found

/-- A call that raises leaves the counters as they were exactly where no class with a row is
named before the one that it stops at. -/
theorem atomic_iff (d : TurnDesk) (call : TurnCall) : g.Atomic d call ↔ g.Ordered d call := by
  unfold Atomic next checkTurnBudgetAndIncrement
  rcases chargeFrom_cases (g := g) call.phase d call.classFqns d with ⟨none_, ended, -⟩ |
    ⟨before, c, after, split, none_, stops, raised, turns⟩
  · refine iff_of_true ?_ ?_
    · rintro ⟨e, raised⟩
      rw [ended] at raised
      cases raised
    · intro before c after split _ stops
      exact absurd stops (none_ c (by rw [split]; simp))
  · rw [turns, charged_eq_iff]
    constructor
    · intro atomic before' c' after' split' none' stops'
      rw [← before_first_unique (split.symm.trans split') none_ stops none' stops']
      exact atomic raised
    · intro ordered _
      exact ordered before c after split none_ stops

/-- What is charged to a class that has a turn left is within the limit. -/
theorem charged_within {d : TurnDesk} {names : List String}
    (open_ : ∀ f ∈ names, ¬ g.Exhausted d f) (id : ℕ) : g.charged d names d.turns id = d.turns id ∨
      ¬ g.budget.Exceeds (g.charged d names d.turns id) := by
  rw [charged_apply]
  split
  · next has =>
      obtain ⟨f, member, row, found, rfl⟩ := has
      exact .inr fun exceeds => open_ f member ⟨row, found, exceeds⟩
  · exact .inl rfl

/-- No call raises a counter above the limit. -/
theorem next_within (d : TurnDesk) (call : TurnCall) (id : ℕ) :
    (g.next d call).turns id = d.turns id ∨ ¬ g.budget.Exceeds ((g.next d call).turns id) := by
  unfold next checkTurnBudgetAndIncrement
  rcases chargeFrom_cases (g := g) call.phase d call.classFqns d with ⟨none_, -, turns⟩ |
    ⟨before, c, after, -, none_, -, -, turns⟩
  · rw [turns]
    exact charged_within none_ id
  · rw [turns]
    exact charged_within none_ id

/-! Every sequence of calls. -/

/-- A counter that starts within the limit stays within it. -/
theorem always_within (d : TurnDesk) (calls : List TurnCall) (id : ℕ)
    (start : ¬ g.budget.Exceeds (d.turns id)) :
    Always g.next (fun e => ¬ g.budget.Exceeds (e.turns id)) d calls := by
  induction calls generalizing d with
  | nil => exact start
  | cons call rest ih =>
      refine ⟨start, ih (g.next d call) ?_⟩
      rcases next_within d call id with same | within
      · rw [same]
        exact start
      · exact within

/-- In every sequence of calls no counter goes above the limit, and every call that raises leaves
the counters as they were, exactly where each call that stops at a class does so before any
other with a row. -/
theorem turns_sound_iff (d : TurnDesk) (calls : List TurnCall) :
    ((∀ id, ¬ g.budget.Exceeds (d.turns id) →
        Always g.next (fun e => ¬ g.budget.Exceeds (e.turns id)) d calls) ∧
      Meets g.next g.Atomic d calls) ↔ Meets g.next g.Ordered d calls := by
  rw [and_iff_right fun id start => always_within d calls id start]
  exact meets_iff g.next (P := fun _ => True) (fun e call _ => atomic_iff e call)
    (fun _ _ _ _ => trivial) d calls trivial

/-- A task with two classes and a limit of one turn; the second class has had its turn. -/
def spentDesk : TurnDesk where
  world := (((World.fresh []).createRepoTask "/repo" 0 none).createClassTask 1 "A" 0).createClassTask
    1 "B" 0
  turns id := if id = 2 then 1 else 0

def oneTurn : TurnGuard where
  taskId := 1
  budget :=
    { budgetSnapshot := some (.obj [("max_llm_turns_per_class", .int 1)])
      configSnapshot := none
      environment := none
      pyInt := fun _ => none }
  quarantineThreshold := 0

/-- The call raises for the second class, and the first has been charged a turn. -/
theorem raised_after_charge :
    (∃ e, (oneTurn.checkTurnBudgetAndIncrement ⟨["A", "B"], "fix_tests"⟩ spentDesk).1 = .error e) ∧
      spentDesk.turns 1 = 0 ∧ (oneTurn.next spentDesk ⟨["A", "B"], "fix_tests"⟩).turns 1 = 1 ∧
      ¬ oneTurn.Atomic spentDesk ⟨["A", "B"], "fix_tests"⟩ := by
  have raises : ∃ e,
      (oneTurn.checkTurnBudgetAndIncrement ⟨["A", "B"], "fix_tests"⟩ spentDesk).1 = .error e :=
    ⟨_, rfl⟩
  have turn : (oneTurn.next spentDesk ⟨["A", "B"], "fix_tests"⟩).turns 1 = 1 := by decide +kernel
  refine ⟨raises, rfl, turn, fun atomic => ?_⟩
  have same := congrFun (atomic raises) 1
  rw [turn] at same
  cases same

end TurnGuard
end Uta.Tasks
