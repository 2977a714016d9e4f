/- The spend ceiling of a task: the sum over its recorded attempts, and the attempts that are
refused for it. -/
import Uta.Operations.Laws
import Mathlib.Algebra.Order.Ring.Rat

namespace Uta.Operations
open Uta.Lib

namespace PyFloat

/-- The sum, not rounded. -/
def add : PyFloat → PyFloat → PyFloat
  | nan, _ | _, nan => nan
  | finite a, finite b => finite (a + b)
  | infinite s, infinite t => if s = t then infinite s else nan
  | infinite s, finite _ | finite _, infinite s => infinite s

/-- The product, not rounded. -/
def mul : PyFloat → PyFloat → PyFloat
  | nan, _ | _, nan => nan
  | finite a, finite b => finite (a * b)
  | infinite s, infinite t => infinite (s != t)
  | infinite s, finite a | finite a, infinite s =>
    if a = 0 then nan else infinite (s != decide (a < 0))

/-- `a <= b`. -/
def le : PyFloat → PyFloat → Bool
  | nan, _ | _, nan => false
  | finite a, finite b => decide (a ≤ b)
  | infinite s, infinite t => s || !t
  | infinite s, finite _ => s
  | finite _, infinite t => !t

def negative : PyFloat → Bool
  | finite a => decide (a < 0)
  | infinite s => s
  | nan => false

end PyFloat

/-! The gate. -/

/-- The two columns of `repo_tasks` that the gate reads. -/
structure Budget where
  hardCapUsd : Option PyFloat
  estimatedCostUsd : Option PyFloat

/-- The cap of a task: the explicit one, or else a multiple of the estimate. -/
def Budget.cap (budget : Budget) (multiplier : PyFloat) : Option PyFloat :=
  match budget.hardCapUsd with
  | some explicit => some explicit
  | none => budget.estimatedCostUsd.map fun estimated =>
      estimated.mul (if multiplier = .finite 0 then .finite 4 else multiplier)

/-- The operation of the row is one of a task. -/
def Ledger.belongs (L : Ledger) (task : Int) (a : AccountingRow) : Bool :=
  (L.operations.find? a.operationId).any fun o => decide (o.repoTaskId = task)

/-- The accounting rows of the operations of a task. -/
def Ledger.attemptsOf (L : Ledger) (task : Int) : List AccountingRow :=
  L.accounting.rows.filter (L.belongs task)

def AccountingRow.Unavailable (a : AccountingRow) : Prop := a.costProvenance = "unavailable"

instance (a : AccountingRow) : Decidable a.Unavailable := inferInstanceAs (Decidable (_ = _))

def total (attempts : List AccountingRow) : PyFloat :=
  (attempts.filterMap AccountingRow.providerCostUsd).foldl PyFloat.add (.finite 0)

/-- `float(SUM(provider_cost_usd) or 0.0)`; a sum that is NaN comes back as NULL. -/
def spend (attempts : List AccountingRow) : PyFloat := (total attempts).stored.getD (.finite 0)

inductive GateError where
  | unknownOperation (operationId : String)
  | taskMissing (operationId : String)
  | costUnknown
  | capReached (cost cap : PyFloat)
  deriving DecidableEq

section Gate
variable (budgets : Int → Option Budget) (multiplier : PyFloat)

/-- `WorkflowCostGate.allow_attempt`. -/
def allowAttempt (L : Ledger) (operationId : String) : Except GateError Unit :=
  match L.operations.find? operationId with
  | none => .error (.unknownOperation operationId)
  | some operation =>
    match budgets operation.repoTaskId with
    | none => .error (.taskMissing operationId)
    | some budget =>
      match budget.cap multiplier with
      | none => .ok ()
      | some cap =>
        if cap.le (.finite 0) then .ok ()
        else if ∃ a ∈ L.attemptsOf operation.repoTaskId, a.Unavailable then .error .costUnknown
        else if cap.le (spend (L.attemptsOf operation.repoTaskId)) then
          .error (.capReached (spend (L.attemptsOf operation.repoTaskId)) cap)
        else .ok ()

end Gate

/-- `workflow_operation_cost_total`: the total, unless no attempt or not every cost is known. -/
def workflowOperationCostTotal (L : Ledger) (task : Int) : Option PyFloat :=
  if L.attemptsOf task = [] ∨ ∃ a ∈ L.attemptsOf task, a.Unavailable then none
  else some (spend (L.attemptsOf task))

/-- The recorded spend of a task has reached a cap, or is not known. -/
def Exhausted (L : Ledger) (task : Int) (cap : PyFloat) : Prop :=
  cap.le (spend (L.attemptsOf task)) = true ∨ ∃ a ∈ L.attemptsOf task, a.Unavailable

/-- A cost that is recorded is not negative. -/
def Call.Charges : Call → Prop
  | .cost _ _ (some amount) _ => amount.negative = false
  | _ => True

/-- Once its spend is exhausted, no further attempt of a task is admitted. -/
def Gated (budgets : Int → Option Budget) (multiplier : PyFloat) (task : Int) (cap : PyFloat) :
    Prop :=
  ∀ (repoTasks : List Int) (earlier later : List (String × Call)),
    (∀ c ∈ later, c.2.Charges) →
    Exhausted (run ledgerStep (.fresh repoTasks) earlier) task cap →
    ∀ k r, (run ledgerStep (.fresh repoTasks) (earlier ++ later)).operations.find? k = some r →
      r.repoTaskId = task →
      allowAttempt budgets multiplier (run ledgerStep (.fresh repoTasks) (earlier ++ later)) k ≠
        .ok ()

/-! What a call records. -/

/-- Every accounting row is about an operation of the ledger. -/
def Accounted (L : Ledger) : Prop :=
  ∀ a ∈ L.accounting.rows, ∃ r, L.operations.find? a.operationId = some r

theorem insertAccounting_ok {L L' : Ledger} {row : AccountingRow} {u : Unit}
    (h : insertAccounting row L = (.ok u, L')) :
    ∃ fresh, L' = { L with accounting := L.accounting.insert row fresh } ∧
      ∃ r, L.operations.find? row.operationId = some r := by
  unfold insertAccounting at h
  split at h
  · split at h
    · rename_i fresh
      split at h
      · rename_i referred
        obtain ⟨_, rfl⟩ := Prod.mk.inj h
        obtain ⟨r, member, same⟩ := List.mem_map.mp referred
        exact ⟨fresh, rfl, r, Table.find?_some.mpr ⟨member, same⟩⟩
      · cases h
    · cases h
  · cases h

/-- A call leaves the accounting alone, or adds a row with the cost it was given. -/
theorem Call.accounting_of_ok {c : Call} {now : String} {L L' : Ledger} {u : Unit}
    (h : c.exec now L = (.ok u, L')) :
    L'.accounting = L.accounting ∨
      ∃ k ordinal cost usage, c = .cost k ordinal cost usage ∧
        ∃ row fresh, row.providerCostUsd = cost.bind PyFloat.stored ∧
          L' = { L with accounting := L.accounting.insert row fresh } ∧
          ∃ r, L.operations.find? row.operationId = some r := by
  cases c with
  | start a sessionId =>
      obtain ⟨row, h⟩ := Act.discard_ok.mp h
      rcases startWorkflowOperation_ok h with ⟨_, _, rfl⟩ | ⟨fresh, rfl, _⟩
      · exact .inl rfl
      · exact .inl rfl
  | complete k e =>
      obtain ⟨row, h⟩ := Act.discard_ok.mp h
      obtain ⟨r, _, ⟨_, _, _, _, rfl⟩ | ⟨_, _, rfl⟩⟩ := completeWorkflowOperation_ok h
      · exact .inl rfl
      · exact .inl rfl
  | fail k errorKind error =>
      obtain ⟨row, h⟩ := Act.discard_ok.mp h
      obtain ⟨r, _, ⟨_, _, _, rfl⟩ | ⟨_, _, rfl⟩⟩ := finishWorkflowOperation_ok h
      · exact .inl rfl
      · exact .inl rfl
  | cancel k e =>
      obtain ⟨row, h⟩ := Act.discard_ok.mp h
      obtain ⟨r, _, ⟨_, _, _, rfl⟩ | ⟨_, _, rfl⟩⟩ := finishWorkflowOperation_ok h
      · exact .inl rfl
      · exact .inl rfl
  | retry k a errorKind =>
      obtain ⟨row, h⟩ := Act.discard_ok.mp h
      obtain ⟨r, _, ⟨_, _, rfl⟩ | ⟨_, _, _, _, _, fresh, rfl⟩⟩ := retryWorkflowOperation_ok h
      · exact .inl rfl
      · exact .inl rfl
  | cost k ordinal cost usage =>
      obtain ⟨row, h⟩ := Act.discard_ok.mp h
      unfold recordWorkflowOperationCost at h
      rw [Act.transaction_ok, Act.bind_ok] at h
      obtain ⟨_, t, read, h⟩ := h
      obtain ⟨ledger, rfl⟩ := Prod.mk.inj read
      obtain rfl := Except.ok.inj ledger
      rcases found : L.accounting.find? (k, ordinal) with _ | existing
      · simp only [found] at h
        obtain ⟨_, t, insert, h⟩ := Act.bind_ok.mp h
        obtain ⟨_, rfl⟩ := Act.pure_ok.mp h
        obtain ⟨fresh, rfl, r, referred⟩ := insertAccounting_ok insert
        exact .inr ⟨k, ordinal, cost, usage, rfl, _, fresh, rfl, rfl, r, referred⟩
      · simp only [found] at h
        split at h
        · split at h
          · obtain ⟨_, rfl⟩ := Act.pure_ok.mp h
            exact .inl rfl
          · cases h
        · split at h
          · obtain ⟨_, rfl⟩ := Act.pure_ok.mp h
            exact .inl rfl
          · cases h

/-- An operation stays on the ledger, under its task. -/
theorem ledgerStep_task {L : Ledger} {k : String} {r : OperationRow} (c : String × Call)
    (found : L.operations.find? k = some r) :
    ∃ s, (ledgerStep L c).operations.find? k = some s ∧ s.repoTaskId = r.repoTaskId := by
  have grown := (c.2.effect c.1 L).step.extends
  obtain ⟨f, hf, same, _⟩ := grown k r.entry (pages_some.mpr ⟨r, found, rfl⟩)
  obtain ⟨s, found', rfl⟩ := pages_some.mp hf
  exact ⟨s, found', congrArg FixedColumns.repoTaskId same⟩

theorem ledgerStep_accounting (L : Ledger) (c : String × Call) :
    (ledgerStep L c).accounting = L.accounting ∨
      ∃ k ordinal cost usage, c.2 = .cost k ordinal cost usage ∧
        ∃ row fresh, row.providerCostUsd = cost.bind PyFloat.stored ∧
          ledgerStep L c = { L with accounting := L.accounting.insert row fresh } ∧
          ∃ r, L.operations.find? row.operationId = some r := by
  by_cases raises : Act.Raises (c.2.exec c.1) L
  · have unchanged : ledgerStep L c = L := c.2.raise_unchanged raises
    rw [unchanged]
    exact .inl rfl
  · obtain ⟨u, h⟩ := Act.returns_of_not_raises raises
    exact Call.accounting_of_ok h

theorem ledgerStep_accounted {L : Ledger} (accounted : Accounted L) (c : String × Call) :
    Accounted (ledgerStep L c) := by
  intro a member
  have known : ∃ r, L.operations.find? a.operationId = some r := by
    rcases ledgerStep_accounting L c with same | ⟨k, ordinal, cost, usage, _, row, fresh, _, step, r, found⟩
    · rw [same] at member
      exact accounted a member
    · rw [step] at member
      rcases List.mem_append.mp member with old | new
      · exact accounted a old
      · rw [List.mem_singleton.mp new]
        exact ⟨r, found⟩
  obtain ⟨r, found⟩ := known
  obtain ⟨s, found', _⟩ := ledgerStep_task c found
  exact ⟨s, found'⟩

/-- The attempts of a task grow, and the costs of the new ones are not negative. -/
def Accrues (task : Int) (L L' : Ledger) : Prop :=
  ∃ extra, L'.attemptsOf task = L.attemptsOf task ++ extra ∧
    ∀ a ∈ extra, ∀ x, a.providerCostUsd = some x → x ≠ .nan ∧ x.negative = false

theorem Accrues.refl (task : Int) (L : Ledger) : Accrues task L L :=
  ⟨[], (List.append_nil _).symm, nofun⟩

theorem Accrues.trans {task : Int} {L L' L'' : Ledger} (first : Accrues task L L')
    (second : Accrues task L' L'') : Accrues task L L'' := by
  obtain ⟨extra, grown, charged⟩ := first
  obtain ⟨more, grown', charged'⟩ := second
  refine ⟨extra ++ more, by rw [grown', grown, List.append_assoc], fun a member => ?_⟩
  rcases List.mem_append.mp member with old | new
  · exact charged a old
  · exact charged' a new

theorem stored_charges {cost : Option PyFloat} {k usage : String} {ordinal : Int}
    (charges : (Call.cost k ordinal cost usage).Charges) {x : PyFloat}
    (stored : cost.bind PyFloat.stored = some x) : x ≠ .nan ∧ x.negative = false := by
  obtain ⟨amount, rfl, kept⟩ := Option.bind_eq_some_iff.mp stored
  cases amount with
  | nan => cases kept
  | finite q => cases kept; exact ⟨nofun, charges⟩
  | infinite s => cases kept; exact ⟨nofun, charges⟩

theorem ledgerStep_accrues {L : Ledger} (accounted : Accounted L) {c : String × Call}
    (charges : c.2.Charges) (task : Int) : Accrues task L (ledgerStep L c) := by
  have known : ∀ a ∈ L.accounting.rows, (ledgerStep L c).belongs task a = L.belongs task a := by
    intro a member
    obtain ⟨r, found⟩ := accounted a member
    obtain ⟨s, found', same⟩ := ledgerStep_task c found
    rw [Ledger.belongs, Ledger.belongs, found, found', Option.any_some, Option.any_some, same]
  rcases ledgerStep_accounting L c with same | ⟨k, ordinal, cost, usage, call, row, fresh, amount, step, _⟩
  · refine ⟨[], ?_, nofun⟩
    rw [List.append_nil, Ledger.attemptsOf, same]
    exact List.filter_congr known
  · rw [call] at charges
    rw [step]
    refine ⟨[row].filter (L.belongs task), ?_, fun a member x paid => ?_⟩
    · exact List.filter_append L.accounting.rows [row]
    rw [List.mem_singleton.mp (List.mem_of_mem_filter member), amount] at paid
    exact stored_charges charges paid

theorem ledgerRun_accrues (task : Int) (later : List (String × Call)) : ∀ L, Accounted L →
    (∀ c ∈ later, c.2.Charges) → Accrues task L (run ledgerStep L later) := by
  induction later with
  | nil =>
      intro L _ _
      exact Accrues.refl task L
  | cons c later ih =>
      intro L accounted charges
      have first := ledgerStep_accrues accounted (charges c List.mem_cons_self) task
      have rest := ih (ledgerStep L c) (ledgerStep_accounted accounted c)
        fun d member => charges d (List.mem_cons_of_mem c member)
      exact first.trans rest

/-! The ceiling. -/

theorem reached_add {cap spent x : PyFloat} (positive : cap.le (.finite 0) = false)
    (reached : cap.le spent = true) (number : x ≠ .nan) (charged : x.negative = false) :
    cap.le (spent.add x) = true := by
  cases spent with
  | nan => cases cap <;> cases reached
  | infinite s =>
      cases x with
      | nan => exact absurd rfl number
      | finite q => exact reached
      | infinite t =>
          cases s with
          | true => cases cap <;> simp_all [PyFloat.le]
          | false => cases t <;> simp_all [PyFloat.le, PyFloat.add, PyFloat.negative]
  | finite p =>
      cases x with
      | nan => exact absurd rfl number
      | infinite t => cases cap <;> simp_all [PyFloat.le, PyFloat.add, PyFloat.negative]
      | finite q =>
          cases cap with
          | nan => cases reached
          | infinite t => exact reached
          | finite c =>
              simp only [PyFloat.le, PyFloat.add, PyFloat.negative, decide_eq_true_eq,
                decide_eq_false_iff_not, not_lt] at *
              exact reached.trans (le_add_of_nonneg_right charged)

theorem reached_fold {cap : PyFloat} (positive : cap.le (.finite 0) = false)
    (costs : List PyFloat) : ∀ spent, cap.le spent = true →
      (∀ x ∈ costs, x ≠ .nan ∧ x.negative = false) →
      cap.le (costs.foldl PyFloat.add spent) = true := by
  induction costs with
  | nil =>
      intro spent reached _
      exact reached
  | cons x costs ih =>
      intro spent reached charged
      obtain ⟨number, notNegative⟩ := charged x List.mem_cons_self
      exact ih _ (reached_add positive reached number notNegative) fun y member =>
        charged y (List.mem_cons_of_mem x member)

/-- Above a positive cap a spend is a total. -/
theorem reached_total {cap : PyFloat} (positive : cap.le (.finite 0) = false)
    (attempts : List AccountingRow) :
    cap.le (spend attempts) = true ↔ cap.le (total attempts) = true := by
  unfold spend
  cases total attempts with
  | nan => cases cap <;> simp_all [PyFloat.stored, PyFloat.le]
  | finite q => rfl
  | infinite s => rfl

/-- What exhausts a positive cap is not made good later. -/
theorem Exhausted.later {L L' : Ledger} {task : Int} {cap : PyFloat}
    (positive : cap.le (.finite 0) = false) (exhausted : Exhausted L task cap)
    (accrues : Accrues task L L') : Exhausted L' task cap := by
  obtain ⟨extra, grown, charged⟩ := accrues
  rcases exhausted with reached | ⟨a, member, unavailable⟩
  · left
    rw [reached_total positive] at reached ⊢
    unfold total at reached ⊢
    rw [grown, List.filterMap_append, List.foldl_append]
    refine reached_fold positive _ _ reached fun x member => ?_
    obtain ⟨a, row, cost⟩ := List.mem_filterMap.mp member
    exact charged a row x cost
  · exact .inr ⟨a, by rw [grown]; exact List.mem_append_left _ member, unavailable⟩

/-- With a positive cap the gate admits an attempt exactly when the spend is not exhausted. -/
theorem allowAttempt_ok_iff {budgets : Int → Option Budget} {multiplier : PyFloat} {L : Ledger}
    {k : String} {r : OperationRow} {budget : Budget} {cap : PyFloat}
    (found : L.operations.find? k = some r) (known : budgets r.repoTaskId = some budget)
    (explicit : budget.hardCapUsd = some cap) :
    allowAttempt budgets multiplier L k = .ok () ↔
      cap.le (.finite 0) = true ∨ ¬ Exhausted L r.repoTaskId cap := by
  have given : budget.cap multiplier = some cap := by rw [Budget.cap, explicit]
  unfold allowAttempt Exhausted
  rw [found]
  dsimp only
  rw [known]
  dsimp only
  rw [given]
  dsimp only
  split_ifs with free unknown reached
  · simp [free]
  · simp [free, unknown]
  · simp [free, reached]
  · simp [free, unknown, reached]

theorem ledgerRun_accounted (repoTasks : List Int) (calls : List (String × Call)) :
    Accounted (run ledgerStep (.fresh repoTasks) calls) := by
  apply run_invariant ledgerStep
  · intro L c accounted
    exact ledgerStep_accounted accounted c
  · exact nofun

/-- The first operation of a task. -/
def firstOperation (task : Int) : StartArgs :=
  ⟨"op-1", task, "run-1", "unit-1", "generate_tests", "turn", 0, 0, "workspace-a", [], 1⟩

theorem firstOperation_started (task : Int) :
    (run ledgerStep (.fresh [task]) [("", .start (firstOperation task) none)]).operations.find?
      "op-1" = some ((firstOperation task).row "" none) := by
  simp [ledgerStep, Act.after, Call.exec, Act.discard_run, startWorkflowOperation, Act.transaction,
    Act.bind_run, selectOperation, insertOperation, requireWorkflowOperation, Ledger.fresh,
    firstOperation, StartArgs.row, OperationRow.Checked, Table.find?, Table.empty, Ledger.add,
    Act.pure_run]

/-- An explicit cap holds a task to its spend exactly when it is positive. -/
theorem gated_iff_positive {budgets : Int → Option Budget} {multiplier : PyFloat} {task : Int}
    {budget : Budget} {cap : PyFloat} (known : budgets task = some budget)
    (explicit : budget.hardCapUsd = some cap) :
    Gated budgets multiplier task cap ↔ cap.le (.finite 0) = false := by
  constructor
  · intro gated
    by_contra free
    rw [Bool.not_eq_false] at free
    have found := firstOperation_started task
    have reached : Exhausted (run ledgerStep (.fresh [task])
        [("", .start (firstOperation task) none)]) task cap := by
      rcases ledgerStep_accounting (.fresh [task]) ("", .start (firstOperation task) none) with
        same | ⟨_, _, _, _, call, _⟩
      · refine .inl ?_
        rw [run_cons, run_nil, Ledger.attemptsOf, same]
        exact free
      · cases call
    apply gated [task] [("", .start (firstOperation task) none)] [] nofun reached "op-1" _ found rfl
    exact (allowAttempt_ok_iff found known explicit).mpr (.inl free)
  · rintro positive repoTasks earlier later charges exhausted k r found rfl admitted
    have accrues := ledgerRun_accrues r.repoTaskId later _ (ledgerRun_accounted repoTasks earlier)
      charges
    rw [← run_append] at accrues
    rcases (allowAttempt_ok_iff found known explicit).mp admitted with free | open_
    · rw [positive] at free
      cases free
    · exact open_ (exhausted.later positive accrues)

/-- A task with a cap of one dollar. -/
def oneDollar : Budget := ⟨some (.finite 1), none⟩

theorem oneDollar_gated :
    Gated (fun _ => some oneDollar) (.finite 4) 7 (.finite 1) ↔
      PyFloat.le (.finite 1) (.finite 0) = false :=
  @gated_iff_positive (fun _ => some oneDollar) _ 7 oneDollar _ rfl rfl

/-- A task with a cap of zero, after an attempt that cost a dollar. -/
def zeroCap : Budget := ⟨some (.finite 0), none⟩

def dollarSpent : List (String × Call) :=
  [("", .start (firstOperation 7) none), ("", .cost "op-1" 1 (some (.finite 1)) "\x7b\x7d")]

theorem zeroCap_admits : ¬ Gated (fun _ => some zeroCap) (.finite 4) 7 (.finite 0) := by
  intro gated
  have exhausted : Exhausted (run ledgerStep (.fresh [7]) dollarSpent) 7 (.finite 0) := by
    refine .inl ?_
    decide +kernel
  have found : (run ledgerStep (.fresh [7]) dollarSpent).operations.find? "op-1" =
      some ((firstOperation 7).row "" none) := by
    decide +kernel
  have admitted : allowAttempt (fun _ => some zeroCap) (.finite 4)
      (run ledgerStep (.fresh [7]) dollarSpent) "op-1" = .ok () :=
    (allowAttempt_ok_iff found rfl rfl).mpr (.inl (by decide))
  exact gated [7] dollarSpent [] nofun exhausted "op-1" _ found rfl admitted

end Uta.Operations
