/- Token totals: what `sync_results` makes of the sessions that a call reports. -/
import Uta.Lib.Run
import Mathlib.Algebra.BigOperators.Group.Finset.Piecewise
import Mathlib.Algebra.Order.BigOperators.Group.Finset
import Mathlib.Logic.Function.Basic
import Mathlib.Algebra.GroupWithZero.Nat

namespace Uta.Tasks
open Uta.Lib

/-- `TOKEN_TOTAL_KEYS`. -/
inductive TokenKey where
  | input
  | output
  | cacheRead
  | cacheWrite
  | reasoning
  deriving DecidableEq

abbrev TokenTotals := TokenKey → ℕ

/-- The figures of one phase. -/
structure PhaseStats where
  tokens : TokenTotals
  total : Option ℕ

/-- Usage by phase; `none` is a value that is no dictionary. -/
abbrev PhaseUsage := List (String × Option PhaseStats)

/-- A class row, as far as its tokens go. -/
structure TokenRow where
  sessionIds : List String
  phaseUsage : PhaseUsage
  tokens : TokenTotals
  actual : TokenTotals

/-- What a result says of a class. -/
structure ClassReport where
  classFqn : String
  sessionIds : List String
  phaseTokenUsage : PhaseUsage

/-- The arguments of `sync_results`: one report a class, and the usage that was observed. -/
structure SyncCall where
  results : List ClassReport
  unique : (results.map ClassReport.classFqn).Nodup
  sessionTotalTokens : Option TokenTotals
  phaseTokenUsage : PhaseUsage

/-- The task and its class rows. -/
structure TokenLedger where
  classFqns : List String
  row : String → TokenRow
  sessionIds : List String
  tokens : TokenTotals
  actual : TokenTotals

/-! The parts of the accounting. -/

/-- `_token_totals`. -/
def tokenTotals (sessionTotalTokens : Option TokenTotals) (usage : PhaseUsage) : TokenTotals :=
  match sessionTotalTokens with
  | some totals => totals
  | none => fun k => (usage.map fun phase => (phase.2.map (·.tokens k)).getD 0).sum

/-- `_session_ids_from_json`. -/
def storedSessionIds (sessionIds : List String) : List String := sessionIds.filter (· ≠ "")

/-- `_merge_session_ids`. -/
def mergeSessionIds (groups : List (List String)) : List String :=
  (groups.flatten.filter (· ≠ "")).eraseDups

/-- `_token_totals_from_row`. -/
def TokenRow.totals (row : TokenRow) : TokenTotals := fun k =>
  if row.tokens k ≠ 0 then row.tokens k else if k = .reasoning then 0 else row.actual k

/-- `_merge_phase_token_usage`. -/
def mergePhaseTokenUsage (existing incoming : PhaseUsage) : PhaseUsage :=
  let phases := existing.map Prod.fst ++ (incoming.map Prod.fst).filter (· ∉ existing.map Prod.fst)
  phases.map fun phase =>
    let left := ((existing.lookup phase).join).getD ⟨fun _ => 0, none⟩
    let right := ((incoming.lookup phase).join).getD ⟨fun _ => 0, none⟩
    (phase, some {
      tokens := fun k => left.tokens k + right.tokens k
      total := if left.total.isSome ∨ right.total.isSome then
        some (left.total.getD 0 + right.total.getD 0) else none })

/-- `_split_token_totals`: the share of one row. -/
def tokenShare (totals : TokenTotals) (count index : ℕ) : TokenTotals := fun k =>
  totals k / max 1 count + if index < totals k % max 1 count then 1 else 0

def TokenTotals.zero : TokenTotals := fun _ => 0

/-- Some figure is not zero. -/
def TokenTotals.Any (totals : TokenTotals) : Prop := ∃ k, totals k ≠ 0

instance (totals : TokenTotals) : Decidable totals.Any :=
  decidable_of_iff (totals .input ≠ 0 ∨ totals .output ≠ 0 ∨ totals .cacheRead ≠ 0 ∨
      totals .cacheWrite ≠ 0 ∨ totals .reasoning ≠ 0) <| by
    constructor
    · rintro (h | h | h | h | h) <;> exact ⟨_, h⟩
    · rintro ⟨_ | _ | _ | _ | _, h⟩ <;> simp [h]

/-- A row that has just been created. -/
def TokenRow.created : TokenRow := ⟨[], [], .zero, .zero⟩

namespace TokenRow

/-- The totals as they are written: each figure in two columns. -/
def write (row : TokenRow) (totals : TokenTotals) : TokenRow :=
  { row with tokens := totals, actual := totals }

/-- The update of a class row with its report. -/
def sync (row : TokenRow) (report : ClassReport) : TokenRow :=
  let existing := storedSessionIds row.sessionIds
  let merged := mergeSessionIds [existing, report.sessionIds]
  let hasNewSessions := report.sessionIds.any fun s => decide (s ∉ existing)
  let usage := report.phaseTokenUsage
  let incoming := tokenTotals none usage
  if usage ≠ [] ∧ hasNewSessions = true ∧ row.totals.Any then
    { row.write (fun k => row.totals k + incoming k) with
      sessionIds := merged, phaseUsage := mergePhaseTokenUsage row.phaseUsage usage }
  else if usage ≠ [] then
    { row.write incoming with sessionIds := merged, phaseUsage := usage }
  else { row.write row.totals with sessionIds := merged }

/-- The update of a class row with its share of what was observed. -/
def shareBatch (row : TokenRow) (share : TokenTotals) : TokenRow :=
  { row.write share with phaseUsage := [("batch_shared", some ⟨share, none⟩)] }

end TokenRow

/-- What the call observed. -/
def SyncCall.observed (call : SyncCall) : TokenTotals :=
  tokenTotals call.sessionTotalTokens call.phaseTokenUsage

namespace TokenLedger
variable (d : TokenLedger) (call : SyncCall)

/-- `ensure_class_tasks`. -/
def ensure : TokenLedger :=
  { d with
    classFqns := d.classFqns ++ (call.results.map ClassReport.classFqn).filter (· ∉ d.classFqns)
    row := fun n => if n ∈ d.classFqns then d.row n else .created }

/-- The loop over the results. -/
def syncRows (row : String → TokenRow) (results : List ClassReport) : String → TokenRow :=
  results.foldl (fun row r => Function.update row r.classFqn ((row r.classFqn).sync r)) row

/-- `missing_token_fqns`. -/
def missing (row : String → TokenRow) (results : List ClassReport) : List String :=
  (results.map ClassReport.classFqn).filter fun n => decide (¬ (row n).totals.Any)

/-- The loop over the rows without tokens. -/
def shareRows (row : String → TokenRow) (observed : TokenTotals) (names : List String) :
    String → TokenRow :=
  if observed.Any ∧ names ≠ [] then
    names.zipIdx.foldl (fun row p =>
      Function.update row p.1 ((row p.1).shareBatch (tokenShare observed names.length p.2))) row
  else row

/-- The sums over the class rows, as `aggregate_repo_task` and what reads it give them. -/
def classTotals (classFqns : List String) (row : String → TokenRow) : TokenTotals := fun k =>
  let tokens := (classFqns.map fun n => (row n).tokens k).sum
  if tokens ≠ 0 then tokens
  else if k = .reasoning then 0 else (classFqns.map fun n => (row n).actual k).sum

/-- `sync_results`. -/
def syncResults : TokenLedger :=
  let ensured := d.ensure call
  let synced := syncRows ensured.row call.results
  let row := shareRows synced call.observed (missing synced call.results)
  let class_ := classTotals ensured.classFqns row
  { classFqns := ensured.classFqns
    row := row
    sessionIds := mergeSessionIds
      (storedSessionIds d.sessionIds ::
        ensured.classFqns.map fun n => storedSessionIds (row n).sessionIds)
    tokens := if call.observed.Any then fun k => max (class_ k) (call.observed k) else class_
    actual := class_ }

/-- A task whose classes have just been created. -/
def created (classFqns : List String) : TokenLedger :=
  ⟨classFqns, fun _ => .created, [], .zero, .zero⟩

/-! What was used. -/

/-- The tokens that the sessions of a set have used for a class. -/
def used (U : String → String → TokenTotals) (classFqn : String) (sessions : Finset String) :
    TokenTotals := fun k => ∑ s ∈ sessions, U classFqn s k

end TokenLedger

/-- The sessions that a row has on record. -/
def TokenRow.sessions (row : TokenRow) : Finset String := (storedSessionIds row.sessionIds).toFinset

namespace ClassReport

/-- The sessions that a report lists. -/
def sessions (r : ClassReport) : Finset String := (storedSessionIds r.sessionIds).toFinset

/-- The usage of a report, where it has any, is that of the sessions that it lists. -/
def Recorded (U : String → String → TokenTotals) (r : ClassReport) : Prop :=
  r.phaseTokenUsage ≠ [] → tokenTotals none r.phaseTokenUsage = TokenLedger.used U r.classFqn r.sessions

/-- Some listed id is not on record; an empty one never is. -/
def ListsNew (r : ClassReport) (row : TokenRow) : Prop :=
  ∃ s ∈ r.sessionIds, s ∉ storedSessionIds row.sessionIds

instance (r : ClassReport) (row : TokenRow) : Decidable (r.ListsNew row) :=
  inferInstanceAs (Decidable (∃ _ ∈ _, _))

/-- Neither the report nor what it leaves of the row has any tokens. -/
def Tokenless (r : ClassReport) (row : TokenRow) : Prop :=
  ¬ (tokenTotals none r.phaseTokenUsage).Any ∧
    (¬ row.totals.Any ∨ r.phaseTokenUsage ≠ [] ∧ ¬ r.ListsNew row)

instance (r : ClassReport) (row : TokenRow) : Decidable (r.Tokenless row) :=
  inferInstanceAs (Decidable (_ ∧ _))

end ClassReport

theorem mem_storedSessionIds {s : String} {ids : List String} :
    s ∈ storedSessionIds ids ↔ s ∈ ids ∧ s ≠ "" := by
  simp [storedSessionIds]

namespace TokenRow
variable (row : TokenRow) (r : ClassReport)

theorem totals_write (totals : TokenTotals) : (row.write totals).totals = totals := by
  funext k
  unfold TokenRow.totals write
  dsimp only
  split
  · rfl
  · next zero => split <;> omega

/-- The sessions of a row after its report: those it had, and those listed. -/
theorem sessions_sync : (row.sync r).sessions = row.sessions ∪ r.sessions := by
  have merged : (row.sync r).sessionIds =
      mergeSessionIds [storedSessionIds row.sessionIds, r.sessionIds] := by
    unfold sync
    dsimp only
    split_ifs <;> rfl
  ext s
  simp [TokenRow.sessions, ClassReport.sessions, merged, mergeSessionIds, mem_storedSessionIds]
  tauto

theorem totals_sync : (row.sync r).totals =
    if r.phaseTokenUsage ≠ [] ∧ r.ListsNew row ∧ row.totals.Any then
      fun k => row.totals k + tokenTotals none r.phaseTokenUsage k
    else if r.phaseTokenUsage ≠ [] then tokenTotals none r.phaseTokenUsage
    else row.totals := by
  have lists : (r.sessionIds.any fun s => decide (s ∉ storedSessionIds row.sessionIds)) = true ↔
      r.ListsNew row := by
    simp [ClassReport.ListsNew]
  unfold sync
  simp only [lists]
  split_ifs
  · exact totals_write row _
  · exact totals_write row _
  · exact totals_write row _

theorem not_any_iff {totals : TokenTotals} : ¬ totals.Any ↔ totals = .zero := by
  constructor
  · intro none_
    funext k
    exact not_not.mp fun some_ => none_ ⟨k, some_⟩
  · rintro rfl ⟨k, some_⟩
    exact some_ rfl

/-- A row is without tokens after its report exactly where the report says so. -/
theorem not_any_sync_iff : ¬ (row.sync r).totals.Any ↔ r.Tokenless row := by
  rw [totals_sync]
  unfold ClassReport.Tokenless
  split_ifs with added replaced
  · obtain ⟨usage, new, k, some_⟩ := added
    refine iff_of_false (fun none_ => none_ ⟨k, ?_⟩) ?_
    · intro zero
      exact some_ (Nat.eq_zero_of_add_eq_zero zero).1
    · rintro ⟨-, none_ | ⟨-, old⟩⟩
      · exact none_ ⟨k, some_⟩
      · exact old new
  · refine ⟨fun none_ => ⟨none_, ?_⟩, fun tokenless => tokenless.1⟩
    by_cases new : r.ListsNew row
    · exact .inl fun any => added ⟨replaced, new, any⟩
    · exact .inr ⟨replaced, new⟩
  · rw [not_not] at replaced
    have none_ : ¬ (tokenTotals none r.phaseTokenUsage).Any := by
      rw [replaced]
      rintro ⟨k, some_⟩
      exact some_ rfl
    exact ⟨fun zero => ⟨none_, .inl zero⟩, fun tokenless =>
      tokenless.2.resolve_right fun usage => usage.1 replaced⟩

/-- The two columns of a figure agree. -/
def Plain : Prop := ∀ k, k ≠ .reasoning → row.actual k = row.tokens k

variable {row} in
theorem Plain.totals (plain : row.Plain) : row.totals = row.tokens := by
  funext k
  unfold TokenRow.totals
  by_cases some_ : row.tokens k ≠ 0
  · rw [if_pos some_]
  · rw [if_neg some_]
    by_cases reasoning : k = .reasoning
    · rw [if_pos reasoning]
      omega
    · rw [if_neg reasoning, plain k reasoning]

theorem plain_sync : (row.sync r).Plain := by
  unfold sync
  dsimp only
  split_ifs <;> exact fun _ _ => rfl

theorem sessions_shareBatch (share : TokenTotals) : (row.shareBatch share).sessions = row.sessions := rfl

theorem totals_shareBatch (share : TokenTotals) : (row.shareBatch share).totals = share :=
  totals_write row share

end TokenRow

end Uta.Tasks
