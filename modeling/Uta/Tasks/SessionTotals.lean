/- Token totals over a run of reports: when the totals of a task are what its sessions have used. -/
import Uta.Tasks.SessionTokens

namespace Uta.Tasks
open Uta.Lib

namespace TokenLedger

/-! One row. -/

section Row
variable (U : String → String → TokenTotals) (row : TokenRow) (r : ClassReport)
  (observed share : TokenTotals)

/-- The row of a class after a call that reports it. -/
def reported : TokenRow :=
  if r.Tokenless row ∧ observed.Any then (row.sync r).shareBatch share else row.sync r

/-- When the totals of a class stay those of its sessions. -/
structure RowFair : Prop where
  /-- A class without any tokens gets a share, which is what its sessions have used. -/
  shared : r.Tokenless row → observed.Any →
    share = used U r.classFqn (row.sessions ∪ r.sessions)
  /-- Usage that is added is usage of sessions that are not on record. -/
  added : r.phaseTokenUsage ≠ [] → r.ListsNew row → row.totals.Any →
    used U r.classFqn (row.sessions ∩ r.sessions) = .zero
  /-- Usage that replaces what is there is that of all sessions on record. -/
  replaced : ¬ (r.Tokenless row ∧ observed.Any) → r.phaseTokenUsage ≠ [] → ¬ r.ListsNew row →
    used U r.classFqn r.sessions = used U r.classFqn row.sessions
  /-- Sessions that come without usage have used nothing. -/
  kept : ¬ (r.Tokenless row ∧ observed.Any) → r.phaseTokenUsage = [] →
    used U r.classFqn (r.sessions \ row.sessions) = .zero

variable {U row r observed share}

theorem used_union (n : String) (a b : Finset String) (k : TokenKey) :
    used U n (a ∪ b) k = used U n a k + used U n (b \ a) k := by
  unfold used
  rw [← Finset.sum_union Finset.disjoint_sdiff, Finset.union_sdiff_self_eq_union]

theorem used_split (n : String) (a b : Finset String) (k : TokenKey) :
    used U n b k = used U n (b \ a) k + used U n (a ∩ b) k := by
  unfold used
  rw [Finset.inter_comm, add_comm, Finset.sum_inter_add_sum_sdiff]

theorem used_inter_le (n : String) (a b : Finset String) (k : TokenKey) :
    used U n (a ∩ b) k ≤ used U n a k :=
  Finset.sum_le_sum_of_subset Finset.inter_subset_left

/-- A report that lists nothing new lists sessions on record only. -/
theorem sessions_subset (old : ¬ r.ListsNew row) : r.sessions ⊆ row.sessions := by
  intro s member
  rw [ClassReport.sessions, List.mem_toFinset, mem_storedSessionIds] at member
  rw [TokenRow.sessions, List.mem_toFinset]
  exact not_not.mp fun out => old ⟨s, member.1, out⟩

theorem sessions_reported :
    (reported row r observed share).sessions = row.sessions ∪ r.sessions := by
  unfold reported
  split
  · rw [TokenRow.sessions_shareBatch, TokenRow.sessions_sync]
  · exact TokenRow.sessions_sync row r

/-- The totals of a reported class are those of its sessions exactly where the report is fair. -/
theorem reported_totals_iff (recorded : r.Recorded U)
    (sound : row.totals = used U r.classFqn row.sessions) :
    (reported row r observed share).totals = used U r.classFqn (row.sessions ∪ r.sessions) ↔
      RowFair U row r observed share := by
  unfold reported
  by_cases tokenless : r.Tokenless row ∧ observed.Any
  · rw [if_pos tokenless, TokenRow.totals_shareBatch]
    refine ⟨fun same => ⟨fun _ _ => same, fun usage new any => ?_, fun no => absurd tokenless no,
      fun no => absurd tokenless no⟩, fun fair => fair.shared tokenless.1 tokenless.2⟩
    rcases tokenless.1.2 with none_ | ⟨-, old⟩
    · exact absurd any none_
    · exact absurd new old
  · rw [if_neg tokenless, TokenRow.totals_sync]
    have union := used_union (U := U) r.classFqn row.sessions r.sessions
    have split := used_split (U := U) r.classFqn row.sessions r.sessions
    have inter := used_inter_le (U := U) r.classFqn row.sessions r.sessions
    have unshared : r.Tokenless row → observed.Any →
        share = used U r.classFqn (row.sessions ∪ r.sessions) :=
      fun less any => absurd ⟨less, any⟩ tokenless
    split_ifs with added replaced
    · obtain ⟨usage, new, any⟩ := added
      rw [recorded usage, sound]
      constructor
      · intro same
        refine ⟨unshared, fun _ _ _ => ?_, fun _ _ old => absurd new old,
          fun _ none_ => absurd none_ usage⟩
        funext k
        have at_ := congrFun same k
        have u := union k
        have s := split k
        show _ = 0
        omega
      · intro fair
        funext k
        have overlap := congrFun (fair.added usage new any) k
        have u := union k
        have s := split k
        change _ = 0 at overlap
        omega
    · rw [recorded replaced]
      by_cases new : r.ListsNew row
      · have none_ : ¬ row.totals.Any := fun any => added ⟨replaced, new, any⟩
        refine iff_of_true ?_ ⟨unshared, fun _ _ any => absurd any none_, fun _ _ old => absurd new old,
          fun _ none_ => absurd none_ replaced⟩
        rw [TokenRow.not_any_iff, sound] at none_
        funext k
        have zero := congrFun none_ k
        have u := union k
        have s := split k
        have i := inter k
        change _ = 0 at zero
        omega
      · have subset := sessions_subset new
        rw [Finset.union_eq_left.mpr subset]
        exact ⟨fun same => ⟨unshared, fun _ new' => absurd new' new, fun _ _ _ => same,
          fun _ none_ => absurd none_ replaced⟩, fun fair => fair.replaced tokenless replaced new⟩
    · rw [not_not] at replaced
      rw [sound]
      constructor
      · intro same
        refine ⟨unshared, fun usage => absurd replaced usage, fun _ usage => absurd replaced usage,
          fun _ _ => ?_⟩
        funext k
        have at_ := congrFun same k
        have u := union k
        show _ = 0
        omega
      · intro fair
        funext k
        have none_ := congrFun (fair.kept tokenless replaced) k
        have u := union k
        change _ = 0 at none_
        omega

end Row

/-! One call. -/

theorem syncRows_other {row : String → TokenRow} {results : List ClassReport} {n : String}
    (other : n ∉ results.map ClassReport.classFqn) : syncRows row results n = row n := by
  induction results generalizing row with
  | nil => rfl
  | cons r rest ih =>
      obtain ⟨differs, later⟩ := not_or.mp (List.mem_cons.not.mp other)
      show syncRows (Function.update row r.classFqn _) rest n = row n
      rw [ih later, Function.update_of_ne differs]

theorem syncRows_report {row : String → TokenRow} {results : List ClassReport}
    (unique : (results.map ClassReport.classFqn).Nodup) {r : ClassReport} (member : r ∈ results) :
    syncRows row results r.classFqn = (row r.classFqn).sync r := by
  induction results generalizing row with
  | nil => cases member
  | cons q rest ih =>
      obtain ⟨fresh, unique⟩ := List.nodup_cons.mp unique
      show syncRows (Function.update row q.classFqn _) rest r.classFqn = _
      rcases List.mem_cons.mp member with rfl | later
      · rw [syncRows_other fresh, Function.update_self]
      · have differs : r.classFqn ≠ q.classFqn := fun same =>
          fresh (same ▸ List.mem_map_of_mem later)
        rw [ih unique later, Function.update_of_ne differs]

theorem shareLoop (share : ℕ → TokenTotals) {names : List String} (unique : names.Nodup) (start : ℕ)
    (row : String → TokenRow) (n : String) :
    ((names.zipIdx start).foldl (fun row p =>
      Function.update row p.1 ((row p.1).shareBatch (share p.2))) row) n =
      if n ∈ names then (row n).shareBatch (share (start + names.idxOf n)) else row n := by
  induction names generalizing row start with
  | nil => rfl
  | cons m rest ih =>
      obtain ⟨fresh, unique⟩ := List.nodup_cons.mp unique
      rw [List.zipIdx_cons, List.foldl_cons, ih unique]
      by_cases here : n = m
      · subst here
        rw [if_neg fresh, if_pos List.mem_cons_self, Function.update_self, List.idxOf_cons_self,
          Nat.add_zero]
      · rw [Function.update_of_ne here, List.idxOf_cons_ne _ (Ne.symm here)]
        simp only [List.mem_cons, here, false_or]
        congr 2
        congr 1
        omega

/-- The classes that get a share, in the order of the results. -/
def tokenless (row : String → TokenRow) (results : List ClassReport) : List String :=
  (results.filter fun r => decide (r.Tokenless (row r.classFqn))).map ClassReport.classFqn

theorem missing_eq (row : String → TokenRow) {results : List ClassReport}
    (unique : (results.map ClassReport.classFqn).Nodup) :
    missing (syncRows row results) results = tokenless row results := by
  unfold missing tokenless
  rw [List.filter_map]
  congr 1
  refine List.filter_congr fun r member => ?_
  rw [Function.comp_apply, syncRows_report unique member]
  exact decide_eq_decide.mpr (TokenRow.not_any_sync_iff _ r)

variable {d : TokenLedger} {call : SyncCall}

/-- The share of a class. -/
def shareOf (d : TokenLedger) (call : SyncCall) (n : String) : TokenTotals :=
  let names := tokenless (d.ensure call).row call.results
  tokenShare call.observed names.length (names.idxOf n)

theorem tokenless_nodup (row : String → TokenRow) : (tokenless row call.results).Nodup :=
  call.unique.sublist (List.filter_sublist.map _)

theorem mem_tokenless {row : String → TokenRow} {r : ClassReport} (member : r ∈ call.results) :
    r.classFqn ∈ tokenless row call.results ↔ r.Tokenless (row r.classFqn) := by
  unfold tokenless
  rw [List.mem_map]
  constructor
  · rintro ⟨q, kept, same⟩
    obtain ⟨inside, less⟩ := List.mem_filter.mp kept
    obtain rfl := List.inj_on_of_nodup_map call.unique inside member same
    exact of_decide_eq_true less
  · intro less
    exact ⟨r, List.mem_filter.mpr ⟨member, decide_eq_true less⟩, rfl⟩

theorem shareRows_apply (row : String → TokenRow) (observed : TokenTotals) {names : List String}
    (unique : names.Nodup) (n : String) : shareRows row observed names n =
      if n ∈ names ∧ observed.Any then
        (row n).shareBatch (tokenShare observed names.length (names.idxOf n))
      else row n := by
  unfold shareRows
  by_cases any : observed.Any
  · by_cases empty : names = []
    · subst empty
      rw [if_neg fun both => both.2 rfl, if_neg fun both => List.not_mem_nil both.1]
    · rw [if_pos ⟨any, empty⟩, shareLoop (tokenShare _ _) unique, Nat.zero_add]
      exact if_congr (and_iff_left any).symm rfl rfl
  · rw [if_neg fun both => any both.1, if_neg fun both => any both.2]

theorem row_report {r : ClassReport} (member : r ∈ call.results) :
    (d.syncResults call).row r.classFqn =
      reported ((d.ensure call).row r.classFqn) r call.observed (d.shareOf call r.classFqn) := by
  show shareRows _ call.observed _ r.classFqn = _
  rw [missing_eq _ call.unique, shareRows_apply _ _ (tokenless_nodup _),
    syncRows_report call.unique member]
  exact if_congr (and_congr_left fun _ => mem_tokenless member) rfl rfl

theorem row_other {n : String} (other : n ∉ call.results.map ClassReport.classFqn) :
    (d.syncResults call).row n = (d.ensure call).row n := by
  show shareRows _ call.observed _ n = _
  rw [missing_eq _ call.unique, shareRows_apply _ _ (tokenless_nodup _), if_neg, syncRows_other other]
  rintro ⟨there, -⟩
  obtain ⟨q, kept, same⟩ := List.mem_map.mp there
  exact other (same ▸ List.mem_map_of_mem (List.mem_of_mem_filter kept))

/-! The totals of a task and of its classes. -/

/-- The totals of every class, and of the task, are those of the sessions seen so far. -/
structure Sound (U : String → String → TokenTotals) (d : TokenLedger) : Prop where
  classes : ∀ n ∈ d.classFqns, (d.row n).totals = used U n (d.row n).sessions
  task : ∀ k, d.tokens k = (d.classFqns.map fun n => used U n (d.row n).sessions k).sum

/-- The sessions that a call lists for a class. -/
def listed (call : SyncCall) (n : String) : Finset String :=
  ((call.results.find? fun r => r.classFqn = n).map ClassReport.sessions).getD ∅

/-- When a call keeps the totals those of the sessions. -/
structure Fair (U : String → String → TokenTotals) (d : TokenLedger) (call : SyncCall) : Prop where
  rows : ∀ r ∈ call.results,
    RowFair U ((d.ensure call).row r.classFqn) r call.observed (d.shareOf call r.classFqn)
  /-- No more was observed than the sessions of the classes have used. -/
  observed : ∀ k, call.observed k ≤
    ((d.ensure call).classFqns.map fun n =>
      used U n (((d.ensure call).row n).sessions ∪ listed call n) k).sum

/-- A call with no new session leaves the totals as they were. -/
def Steady (d : TokenLedger) (call : SyncCall) : Prop :=
  (∀ n, listed call n ⊆ ((d.ensure call).row n).sessions) →
    (∀ n ∈ d.classFqns, ((d.syncResults call).row n).totals = (d.row n).totals) ∧
      (d.syncResults call).tokens = d.tokens

theorem ensure_row (n : String) : (d.ensure call).row n = d.row n ∨ (d.ensure call).row n = .created := by
  by_cases here : n ∈ d.classFqns
  · exact .inl (if_pos here)
  · exact .inr (if_neg here)

theorem plain_next (plain : ∀ n, (d.row n).Plain) (n : String) :
    ((d.syncResults call).row n).Plain := by
  by_cases named : n ∈ call.results.map ClassReport.classFqn
  · obtain ⟨r, member, rfl⟩ := List.mem_map.mp named
    rw [row_report member]
    unfold reported
    split
    · exact fun _ _ => rfl
    · exact TokenRow.plain_sync _ r
  · rw [row_other named]
    rcases @ensure_row d call n with same | same
    · rw [same]
      exact plain n
    · rw [same]
      exact fun _ _ => rfl

theorem classTotals_eq {row : String → TokenRow} (plain : ∀ n, (row n).Plain)
    (classFqns : List String) (k : TokenKey) :
    classTotals classFqns row k = (classFqns.map fun n => (row n).totals k).sum := by
  have reads : (classFqns.map fun n => (row n).totals k) = classFqns.map fun n => (row n).tokens k :=
    List.map_congr_left fun n _ => congrFun (plain n).totals k
  rw [reads]
  unfold classTotals
  dsimp only
  by_cases some_ : (classFqns.map fun n => (row n).tokens k).sum ≠ 0
  · rw [if_pos some_]
  · rw [if_neg some_]
    by_cases reasoning : k = .reasoning
    · rw [if_pos reasoning]
      omega
    · rw [if_neg reasoning]
      exact congrArg List.sum (List.map_congr_left fun n _ => plain n k reasoning)

/-- The totals of a task are the sums over its classes exactly where no more was observed. -/
theorem tokens_eq_iff (plain : ∀ n, (d.row n).Plain) (k : TokenKey) :
    (d.syncResults call).tokens k =
        ((d.ensure call).classFqns.map fun n => ((d.syncResults call).row n).totals k).sum ↔
      call.observed k ≤
        ((d.ensure call).classFqns.map fun n => ((d.syncResults call).row n).totals k).sum := by
  rw [← classTotals_eq (plain_next plain)]
  show (if call.observed.Any then _ else _ : TokenTotals) k = classTotals _ _ k ↔ _
  by_cases any : call.observed.Any
  · rw [if_pos any]
    show max _ _ = _ ↔ _
    exact max_eq_left_iff
  · rw [if_neg any]
    refine iff_of_true rfl ?_
    rw [TokenRow.not_any_iff] at any
    rw [any]
    exact Nat.zero_le _

/-- A class that is not yet there has no sessions and no tokens. -/
theorem ensure_sound {U : String → String → TokenTotals} (sound : d.Sound U) (n : String) :
    ((d.ensure call).row n).totals = used U n ((d.ensure call).row n).sessions := by
  show (if n ∈ d.classFqns then d.row n else .created : TokenRow).totals =
    used U n (if n ∈ d.classFqns then d.row n else .created : TokenRow).sessions
  split
  · next here => exact sound.classes n here
  · funext k
    rw [show TokenRow.created.totals k = 0 by simp [TokenRow.totals, TokenRow.created, TokenTotals.zero]]
    rfl

theorem listed_report {r : ClassReport} (member : r ∈ call.results) :
    listed call r.classFqn = r.sessions := by
  unfold listed
  cases found : call.results.find? fun q => q.classFqn = r.classFqn with
  | none =>
      have missed := List.find?_eq_none.mp found r member
      simp at missed
  | some q =>
      have same : q.classFqn = r.classFqn := by simpa using List.find?_some found
      obtain rfl := List.inj_on_of_nodup_map call.unique (List.mem_of_find?_eq_some found) member same
      rfl

theorem listed_other {n : String} (other : n ∉ call.results.map ClassReport.classFqn) :
    listed call n = ∅ := by
  unfold listed
  cases found : call.results.find? fun q => q.classFqn = n with
  | none => rfl
  | some q =>
      have same : q.classFqn = n := by simpa using List.find?_some found
      exact absurd (same ▸ List.mem_map_of_mem (List.mem_of_find?_eq_some found)) other

/-- The sessions of a class after a call. -/
theorem sessions_next (n : String) : ((d.syncResults call).row n).sessions =
    ((d.ensure call).row n).sessions ∪ listed call n := by
  by_cases named : n ∈ call.results.map ClassReport.classFqn
  · obtain ⟨r, member, rfl⟩ := List.mem_map.mp named
    rw [row_report member, sessions_reported, listed_report member]
  · rw [row_other named, listed_other named, Finset.union_empty]

/-- A call keeps the totals those of the sessions exactly where it is fair. -/
theorem sound_next_iff {U : String → String → TokenTotals} (plain : ∀ n, (d.row n).Plain)
    (recorded : ∀ r ∈ call.results, r.Recorded U) (sound : d.Sound U) :
    (d.syncResults call).Sound U ↔ d.Fair U call := by
  have reports : ∀ r ∈ call.results,
      (((d.syncResults call).row r.classFqn).totals =
          used U r.classFqn ((d.syncResults call).row r.classFqn).sessions ↔
        RowFair U ((d.ensure call).row r.classFqn) r call.observed (d.shareOf call r.classFqn)) := by
    intro r member
    rw [row_report member, sessions_reported]
    exact reported_totals_iff (recorded r member) (ensure_sound sound r.classFqn)
  have others : ∀ n, n ∉ call.results.map ClassReport.classFqn →
      ((d.syncResults call).row n).totals = used U n ((d.syncResults call).row n).sessions := by
    intro n other
    rw [row_other other]
    exact ensure_sound sound n
  have present : ∀ r ∈ call.results, r.classFqn ∈ (d.syncResults call).classFqns := by
    intro r member
    show r.classFqn ∈ d.classFqns ++ _
    by_cases here : r.classFqn ∈ d.classFqns
    · exact List.mem_append_left _ here
    · exact List.mem_append_right _ (List.mem_filter.mpr
        ⟨List.mem_map_of_mem member, decide_eq_true here⟩)
  have sums : (∀ n ∈ (d.syncResults call).classFqns, ((d.syncResults call).row n).totals =
      used U n ((d.syncResults call).row n).sessions) → ∀ k,
      ((d.ensure call).classFqns.map fun n => ((d.syncResults call).row n).totals k).sum =
        ((d.ensure call).classFqns.map fun n =>
          used U n (((d.ensure call).row n).sessions ∪ listed call n) k).sum := by
    intro classes k
    refine congrArg List.sum (List.map_congr_left fun n member => ?_)
    rw [classes n member, sessions_next]
  constructor
  · rintro ⟨classes, task⟩
    refine ⟨fun r member => (reports r member).mp (classes _ (present r member)), fun k => ?_⟩
    have total := task k
    simp only [sessions_next] at total
    rw [← sums classes k]
    exact (tokens_eq_iff plain k).mp (total.trans (sums classes k).symm)
  · rintro ⟨rows, observed⟩
    have classes : ∀ n ∈ (d.syncResults call).classFqns, ((d.syncResults call).row n).totals =
        used U n ((d.syncResults call).row n).sessions := by
      intro n _
      by_cases named : n ∈ call.results.map ClassReport.classFqn
      · obtain ⟨r, member, rfl⟩ := List.mem_map.mp named
        exact (reports r member).mpr (rows r member)
      · exact others n named
    refine ⟨classes, fun k => ?_⟩
    simp only [sessions_next]
    have within := observed k
    rw [← sums classes k] at within
    exact ((tokens_eq_iff plain k).mpr within).trans (sums classes k)

/-! Every sequence of calls. -/

/-- Where the totals are those of the sessions before and after a call, the call is steady. -/
theorem steady_of_sound {U : String → String → TokenTotals} (before : d.Sound U)
    (after : (d.syncResults call).Sound U) : d.Steady call := by
  intro nothing
  have same : ∀ n, ((d.syncResults call).row n).sessions = ((d.ensure call).row n).sessions :=
    fun n => (sessions_next n).trans (Finset.union_eq_left.mpr (nothing n))
  have kept : ∀ n ∈ d.classFqns, (d.ensure call).row n = d.row n := fun n here => if_pos here
  constructor
  · intro n here
    rw [after.classes n (List.mem_append_left _ here), same, kept n here, before.classes n here]
  · funext k
    rw [after.task k, before.task k]
    show ((d.classFqns ++ _).map _).sum = _
    rw [List.map_append, List.sum_append]
    have new : (((call.results.map ClassReport.classFqn).filter (· ∉ d.classFqns)).map fun n =>
        used U n ((d.syncResults call).row n).sessions k).sum = 0 := by
      refine List.sum_eq_zero fun x member => ?_
      obtain ⟨n, fresh, rfl⟩ := List.mem_map.mp member
      have out : n ∉ d.classFqns := of_decide_eq_true (List.mem_filter.mp fresh).2
      rw [same, show (d.ensure call).row n = .created from if_neg out]
      rfl
    rw [new, Nat.add_zero]
    exact congrArg List.sum (List.map_congr_left fun n here => by rw [same, kept n here])

theorem sound_created (U : String → String → TokenTotals) (classFqns : List String) :
    (created classFqns).Sound U where
  classes n _ := by
    funext k
    show TokenRow.created.totals k = 0
    simp [TokenRow.totals, TokenRow.created, TokenTotals.zero]
  task k := by
    refine (List.sum_eq_zero fun x member => ?_).symm
    obtain ⟨n, -, rfl⟩ := List.mem_map.mp member
    rfl

/-- After every sequence of calls the totals are those of the distinct sessions seen so far, and
a call without new sessions changes none, exactly where every call of the sequence is fair. -/
theorem syncResults_sound_iff (U : String → String → TokenTotals) (classFqns : List String)
    (calls : List SyncCall) (recorded : ∀ call ∈ calls, ∀ r ∈ call.results, r.Recorded U) :
    (Always syncResults (Sound U) (created classFqns) calls ∧
        Meets syncResults Steady (created classFqns) calls) ↔
      Meets syncResults (Fair U) (created classFqns) calls := by
  have start := sound_created U classFqns
  have plain : ∀ n, ((created classFqns).row n).Plain := fun _ _ _ => rfl
  generalize created classFqns = d at start plain
  induction calls generalizing d with
  | nil => exact ⟨fun _ => trivial, fun _ => ⟨start, trivial⟩⟩
  | cons call rest ih =>
      have recordedRest := fun c member => recorded c (List.mem_cons_of_mem call member)
      have step := sound_next_iff (U := U) plain (recorded call List.mem_cons_self) start
      constructor
      · rintro ⟨⟨-, always⟩, ⟨-, steady⟩⟩
        have next := always.start
        exact ⟨step.mp next, (ih recordedRest _ next (plain_next plain)).mp ⟨always, steady⟩⟩
      · rintro ⟨fair, later⟩
        have next := step.mpr fair
        obtain ⟨always, steady⟩ := (ih recordedRest _ next (plain_next plain)).mpr later
        exact ⟨⟨start, always⟩, steady_of_sound start next, steady⟩

/-! A resumed class: two sessions, each reported by itself. -/

def inputTokens (n : ℕ) : TokenTotals
  | .input => n
  | _ => 0

def resumeUsage (_ session : String) : TokenTotals :=
  inputTokens (if session = "ses_1" then 10 else if session = "ses_2" then 20 else 0)

def resumeReport (session : String) : ClassReport :=
  ⟨"pkg.A", [session], [("generate", some ⟨resumeUsage "pkg.A" session, none⟩)]⟩

def resumeCall (session : String) : SyncCall :=
  ⟨[resumeReport session], List.nodup_singleton _, none, []⟩

theorem recorded_resume {session : String} (named : session ≠ "") :
    ∀ r ∈ (resumeCall session).results, r.Recorded resumeUsage := by
  intro r member _
  obtain rfl := List.mem_singleton.mp member
  have sessions : (resumeReport session).sessions = {session} := by
    ext s
    simp only [ClassReport.sessions, List.mem_toFinset, mem_storedSessionIds, resumeReport,
      List.mem_singleton, Finset.mem_singleton]
    exact ⟨And.left, fun same => ⟨same, same ▸ named⟩⟩
  funext k
  rw [used, sessions, Finset.sum_singleton]
  show List.sum [resumeUsage "pkg.A" session k] = _
  rw [List.sum_singleton]
  rfl

theorem resumed_sound_iff :
    (Always syncResults (Sound resumeUsage) (created ["pkg.A"])
          [resumeCall "ses_1", resumeCall "ses_2"] ∧
        Meets syncResults Steady (created ["pkg.A"]) [resumeCall "ses_1", resumeCall "ses_2"]) ↔
      Meets syncResults (Fair resumeUsage) (created ["pkg.A"])
        [resumeCall "ses_1", resumeCall "ses_2"] := by
  refine syncResults_sound_iff resumeUsage ["pkg.A"] _ fun call member => ?_
  rcases List.mem_cons.mp member with rfl | member
  · exact recorded_resume (by decide)
  · obtain rfl := List.mem_singleton.mp member
    exact recorded_resume (by decide)

/-- Reporting the second session once more drops the tokens of the first. -/
theorem repeated_report_drops :
    ((run syncResults (created ["pkg.A"]) [resumeCall "ses_1", resumeCall "ses_2"]).row
        "pkg.A").tokens .input = 30 ∧
      ((run syncResults (created ["pkg.A"])
        [resumeCall "ses_1", resumeCall "ses_2", resumeCall "ses_2"]).row "pkg.A").tokens .input = 20 ∧
      ¬ Meets syncResults Steady (created ["pkg.A"])
        [resumeCall "ses_1", resumeCall "ses_2", resumeCall "ses_2"] := by
  have before : ((run syncResults (created ["pkg.A"]) [resumeCall "ses_1", resumeCall "ses_2"]).row
      "pkg.A").totals .input = 30 := by decide +kernel
  have after : ((run syncResults (created ["pkg.A"])
      [resumeCall "ses_1", resumeCall "ses_2", resumeCall "ses_2"]).row "pkg.A").totals .input = 20 := by
    decide +kernel
  refine ⟨by decide +kernel, by decide +kernel, ?_⟩
  rintro ⟨-, -, steady, -⟩
  have none_ : ∀ n, listed (resumeCall "ses_2") n ⊆
      (((run syncResults (created ["pkg.A"]) [resumeCall "ses_1", resumeCall "ses_2"]).ensure
        (resumeCall "ses_2")).row n).sessions := by
    intro n
    by_cases named : n = "pkg.A"
    · subst named
      decide +kernel
    · rw [listed_other (by simpa [resumeCall, resumeReport] using named)]
      exact Finset.empty_subset _
  have same := congrFun ((steady none_).1 "pkg.A" (by decide +kernel)) .input
  change ((run syncResults (created ["pkg.A"])
    [resumeCall "ses_1", resumeCall "ses_2", resumeCall "ses_2"]).row "pkg.A").totals .input =
      ((run syncResults (created ["pkg.A"]) [resumeCall "ses_1", resumeCall "ses_2"]).row
        "pkg.A").totals .input at same
  rw [after, before] at same
  cases same

end TokenLedger
end Uta.Tasks
