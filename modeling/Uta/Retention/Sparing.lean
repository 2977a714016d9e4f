/- What retention deletes: never the batch of a task that is under way, as long as
no task that a pass has found is taken up again before the pass ends. -/
import Uta.Retention.Prune

namespace Uta.Retention
open Uta.Lib Uta.Tasks Uta.Generation

/-! Statements of the property. -/

/-- The task, if there is one, has one of these statuses. -/
def Finished (counts : RepoStatus → Prop) (store : Store) (taskId : ℕ) : Prop :=
  ∀ row ∈ store.world.tasks.find? taskId, counts row.status

instance (counts : RepoStatus → Prop) [DecidablePred counts] (store : Store) (taskId : ℕ) :
    Decidable (Finished counts store taskId) :=
  inferInstanceAs (Decidable (∀ row ∈ store.world.tasks.find? taskId, _))

/-- What has this identity is the current batch of no class whose task has another
status than these. -/
def Spent (counts : RepoStatus → Prop) (store : Store) (id : WorkflowIdentity) : Prop :=
  store.Current id.taskId id.workflowRunId id.unitId → Finished counts store id.taskId

/-- Whatever is gone in the second depot was spent in the first. -/
structure Spares (counts : RepoStatus → Prop) (before after : Depot) : Prop where
  checkpoints : ∀ id ∈ before.checkpoints, id ∉ after.checkpoints → Spent counts before.store id
  operations : ∀ o ∈ before.operations, o ∉ after.operations → Spent counts before.store o.identity
  artifacts : ∀ a ∈ before.artifacts, a ∉ after.artifacts → ∀ taskId,
    Spent counts before.store ⟨taskId, a.workflowRunId, a.unitId⟩
  prompts : ∀ p ∈ before.prompts, p ∉ after.prompts → Spent counts before.store p.identity

section Runs
variable (sha : Sha256) (pyInt : Json → Option ℤ)

/-- No step of the run deletes what is not spent. -/
def AlwaysSpares (counts : RepoStatus → Prop) : Site → List Deed → Prop :=
  Meets (Site.step sha pyInt) fun s deed => Spares counts s.depot (s.step sha pyInt deed).depot

/-- An operation leaves the tasks that the passes have found in these statuses, and
the run it draws is new. -/
def Undisturbed (counts : RepoStatus → Prop) (s : Site) : Deed → Prop
  | .op o => o.Fresh s.depot.store ∧
      ∀ t ∈ s.watched, Finished counts (Generation.step sha pyInt s.depot.store o) t
  | _ => True

instance (counts : RepoStatus → Prop) [DecidablePred counts] (s : Site) (deed : Deed) :
    Decidable (Undisturbed sha pyInt counts s deed) := by
  cases deed <;> unfold Undisturbed <;> infer_instance

/-- A pass finds only tasks in these statuses. -/
def Finds (counts : RepoStatus → Prop) (s : Site) : Deed → Prop
  | .go n =>
    match s.passes[n]? with
    | some ⟨.stmt (.eligibleTerminalTaskIds cutoff) _, _⟩ =>
      ∀ t ∈ s.depot.eligibleTerminalTaskIds cutoff, Finished counts s.depot.store t
    | _ => True
  | _ => True

instance (counts : RepoStatus → Prop) [DecidablePred counts] (s : Site) (deed : Deed) :
    Decidable (Finds counts s deed) := by
  unfold Finds
  split
  · split <;> infer_instance
  · infer_instance

end Runs

/-! What a pass knows. -/

/-- A statement that what a pass has read allows. -/
def Known.Allows (k : Known) : Query → Prop
  | .operationIdentities taskId => taskId ∈ k.taskIds
  | .batchKeys taskId => taskId ∈ k.taskIds
  | .deleteCheckpointLineage identity => identity ∈ k.identities
  | .deleteUnit run unit => ∃ id ∈ k.identities, id.workflowRunId = run ∧ id.unitId = unit
  | .deleteOperations identity => identity ∈ k.identities
  | .deleteManagedUnit identity => identity ∈ k.identities
  | _ => True

instance : Preorder Known where
  le k l := k.taskIds ⊆ l.taskIds ∧ k.identities ⊆ l.identities
  le_refl _ := ⟨fun _ h => h, fun _ h => h⟩
  le_trans _ _ _ first second := ⟨fun _ h => second.1 (first.1 h), fun _ h => second.2 (first.2 h)⟩

theorem Known.learn_grows (k : Known) (q : Query) (a : q.Answer) : k ≤ k.learn q a := by
  cases q <;> first
    | exact le_rfl
    | exact ⟨List.subset_append_left _ _, fun _ h => h⟩
    | exact ⟨fun _ h => h, List.subset_append_left _ _⟩

/-- The pass goes by what it has read, and `Q` holds where it ends. -/
abbrev Sure (Q : α → Known → Prop) (p : Pruning α) (k : Known) : Prop :=
  p.Ensures Known.Allows Known.learn Q k

/-- A query is allowed, and the pass goes on from its answer. -/
theorem sure_query {q : Query} {f : q.Answer → Pruning α} {Q : α → Known → Prop} {k : Known}
    (allowed : k.Allows q) (rest : ∀ a, Sure Q (f a) (k.learn q a)) : Sure Q (query q >>= f) k :=
  ⟨allowed, rest⟩

/-- The pass knows the tasks it had found, and these identities. -/
def Knows (k : Known) (ids : List WorkflowIdentity) (l : Known) : Prop := k ≤ l ∧ ids ⊆ l.identities

theorem sure_taskIdentities (taskIds : List ℕ) {k : Known} (found : taskIds ⊆ k.taskIds) :
    Sure (Knows k) (taskIdentities taskIds) k := by
  induction taskIds generalizing k with
  | nil => exact ⟨le_rfl, List.nil_subset _⟩
  | cons taskId taskIds ih =>
      obtain ⟨own, others⟩ := List.cons_subset.mp found
      refine sure_query own fun operations => sure_query own fun keys => ?_
      refine (@ih ((k.learn (.operationIdentities taskId) operations).learn (.batchKeys taskId) keys)
        others).bind fun ids l knows => ?_
      refine ⟨(Known.learn_grows k _ operations).trans ((Known.learn_grows _ _ keys).trans knows.1), ?_⟩
      refine List.append_subset.mpr ⟨List.append_subset.mpr ⟨?_, ?_⟩, knows.2⟩
      · exact fun id member => knows.1.2 (List.mem_append_left _ (List.mem_append_right _ member))
      · exact fun id member => knows.1.2 (List.mem_append_right _ member)

theorem sure_eligibleIdentities (cutoff : Time) (taskIds : List ℕ) {k : Known}
    (found : taskIds ⊆ k.taskIds) : Sure (Knows k) (eligibleIdentities cutoff taskIds) k := by
  refine (sure_taskIdentities taskIds found).bind fun ids l knows => ?_
  refine sure_query trivial fun superseded => ?_
  refine ⟨knows.1.trans (Known.learn_grows l _ superseded), fun id member => ?_⟩
  rw [List.mem_insertionSort, List.mem_dedup] at member
  rcases List.mem_append.mp member with own | old
  · exact List.mem_append_left _ (knows.2 own)
  · exact List.mem_append_right _ old

theorem sure_pruneLineages (promptRetention : Bool) (ids : List WorkflowIdentity)
    (counts : WorkflowPruneResult) {k : Known} (found : ids ⊆ k.identities) :
    Sure (fun _ _ => True) (pruneLineages promptRetention ids counts) k := by
  induction ids generalizing counts with
  | nil => trivial
  | cons id ids ih =>
      obtain ⟨own, others⟩ := List.cons_subset.mp found
      refine sure_query own fun _ => ?_
      have artifacts : Sure (fun _ l => l = k) (deleteUnit id) k := by
        unfold deleteUnit
        split
        · exact ⟨⟨id, own, rfl, rfl⟩, fun _ => rfl⟩
        · trivial
      refine artifacts.bind fun removed l same => ?_
      subst same
      refine sure_query own fun rows => ?_
      have prompts : Sure (fun _ m => m = l) (deletePrompts promptRetention id) l := by
        unfold deletePrompts
        split
        · exact ⟨own, fun _ => rfl⟩
        · rfl
      refine prompts.bind fun _ m same => ?_
      subst same
      exact ih _ others

/-- A pass deletes only what it has read, of tasks that it has found. -/
theorem sure_pruneWorkflows (args : PruneArgs) :
    Sure (fun _ _ => True) (pruneWorkflows args) {} := by
  unfold pruneWorkflows
  split
  · trivial
  · have time : Sure (fun _ l => l = {}) (currentTime args.now) {} := by
      rcases args.now with _ | now
      · exact ⟨trivial, fun _ => rfl⟩
      · rfl
    refine time.bind fun current l same => ?_
    subst same
    refine sure_query trivial fun taskIds => ?_
    refine (sure_eligibleIdentities _ taskIds (List.subset_append_right _ _)).bind fun ids l knows => ?_
    exact sure_pruneLineages args.promptRetention ids {} knows.2

/-! The site. -/

/-- The identities that a pass has read are those of tasks that it found, or of
runs that were replaced. -/
def Backed (store : Store) (k : Known) : Prop :=
  ∀ id ∈ k.identities, (id.taskId ∈ k.taskIds ∧ store.Uses id.taskId id.workflowRunId) ∨
    store.Superseded id.taskId id.workflowRunId

/-- Every run that anything is kept under, or that a pass has read, is accounted for
in the database. -/
structure Accounted (counts : RepoStatus → Prop) (s : Site) : Prop where
  traced : Traced s.depot.store
  operations : ∀ o ∈ s.depot.operations, s.depot.store.Uses o.identity.taskId o.identity.workflowRunId
  batches : ∀ b ∈ s.batches, s.depot.store.Uses b.repoTaskId b.workflowRunId
  passes : ∀ p ∈ s.passes, Sure (fun _ _ => True) p.rest p.known ∧ Backed s.depot.store p.known
  finished : ∀ t ∈ s.watched, Finished counts s.depot.store t

section Queries
variable (q : Query) (d : Depot)

theorem exec_store : (q.exec d).2.store = d.store := by
  cases q <;> rfl

theorem exec_operations : (q.exec d).2.operations ⊆ d.operations := by
  cases q with
  | deleteOperations id => exact List.filter_subset_self _
  | _ => exact fun _ member => member

end Queries

section Reading
variable {d : Depot} {k : Known} {taskId : ℕ} {id : WorkflowIdentity}

theorem uses_of_operation (kept : ∀ o ∈ d.operations, d.store.Uses o.identity.taskId o.identity.workflowRunId)
    (member : id ∈ (d.operationIdentities taskId).map (identityOf taskId)) :
    id.taskId = taskId ∧ d.store.Uses id.taskId id.workflowRunId := by
  obtain ⟨p, listed, rfl⟩ := List.mem_map.mp member
  obtain ⟨o, row, rfl⟩ := List.mem_map.mp (List.mem_dedup.mp listed)
  obtain ⟨own, task⟩ := List.mem_filter.mp row
  have same : o.identity.taskId = taskId := of_decide_eq_true task
  subst same
  exact ⟨rfl, kept o own⟩

theorem uses_of_batchKey (member : id ∈ ((d.batchKeys taskId).filterMap parseBatchKey).map (identityOf taskId)) :
    id.taskId = taskId ∧ d.store.Uses id.taskId id.workflowRunId := by
  obtain ⟨p, listed, rfl⟩ := List.mem_map.mp member
  obtain ⟨key, keyed, parsed⟩ := List.mem_filterMap.mp listed
  obtain ⟨c, row, has⟩ := List.mem_filterMap.mp (List.mem_dedup.mp keyed)
  obtain ⟨own, task⟩ := List.mem_filter.mp row
  have split : splitKey key = some (p.1, p.2) := (Option.filter_eq_some_iff.mp parsed).1
  exact ⟨rfl, .inl ⟨p.2, current_iff.mpr ⟨c, own, of_decide_eq_true task, key, has, split⟩⟩⟩

theorem superseded_of_row {cutoff : Time} (member : id ∈ supersededIdentities (d.supersededRuns cutoff)) :
    d.store.Superseded id.taskId id.workflowRunId := by
  obtain ⟨row, listed, unit⟩ := List.mem_flatMap.mp member
  obtain ⟨u, -, rfl⟩ := List.mem_map.mp unit
  obtain ⟨s, old, known⟩ := List.mem_filterMap.mp listed
  obtain ⟨run, has, rfl⟩ := Option.map_eq_some_iff.mp known
  exact ⟨s, (List.mem_filter.mp old).1, rfl, has⟩

/-- What a pass reads is backed. -/
theorem Backed.learn {q : Query}
    (kept : ∀ o ∈ d.operations, d.store.Uses o.identity.taskId o.identity.workflowRunId)
    (backed : Backed d.store k) (allowed : k.Allows q) : Backed d.store (k.learn q (q.exec d).1) := by
  cases q with
  | eligibleTerminalTaskIds cutoff =>
      intro id member
      refine (backed id member).imp_left fun own => ⟨List.mem_append_left _ own.1, own.2⟩
  | operationIdentities taskId =>
      intro id member
      rcases List.mem_append.mp member with before | new
      · exact backed id before
      · obtain ⟨rfl, uses⟩ := uses_of_operation kept new
        exact .inl ⟨allowed, uses⟩
  | batchKeys taskId =>
      intro id member
      rcases List.mem_append.mp member with before | new
      · exact backed id before
      · obtain ⟨rfl, uses⟩ := uses_of_batchKey new
        exact .inl ⟨allowed, uses⟩
  | supersededRuns cutoff =>
      intro id member
      rcases List.mem_append.mp member with before | new
      · exact backed id before
      · exact .inr (superseded_of_row new)
  | _ => exact backed

end Reading

/-! Steps. -/

section Steps
variable {sha : Sha256} {pyInt : Json → Option ℤ} {counts : RepoStatus → Prop} {s : Site}

theorem Accounted.spent (accounted : Accounted counts s) {p : Pass} (pass : p ∈ s.passes)
    (going : p.watched = p.known.taskIds) {id : WorkflowIdentity} (read : id ∈ p.known.identities)
    (taskId : ℕ) : Spent counts s.depot.store ⟨taskId, id.workflowRunId, id.unitId⟩ := by
  intro current
  rcases (accounted.passes p pass).2 id read with ⟨found, uses⟩ | old
  · have same : id.taskId = taskId := accounted.traced.apart uses (.inl ⟨_, current⟩)
    subst same
    apply accounted.finished
    exact List.mem_flatMap.mpr ⟨p, pass, going ▸ found⟩
  · exact absurd current (accounted.traced.replaced old)

theorem mem_of_not_mem_filter {α : Type} {p : α → Bool} {l : List α} {a : α} (member : a ∈ l)
    (gone : a ∉ l.filter p) : ¬ p a = true :=
  fun holds => gone (List.mem_filter.mpr ⟨member, holds⟩)

/-- A query of a pass deletes only what is spent. -/
theorem spares_query (accounted : Accounted counts s) {q : Query}
    {next : q.Answer → Pruning WorkflowPruneResult} {known : Known}
    (pass : (⟨.stmt q next, known⟩ : Pass) ∈ s.passes) : Spares counts s.depot (q.exec s.depot).2 := by
  have allowed : known.Allows q := (accounted.passes _ pass).1.1
  have spent : ∀ {id : WorkflowIdentity}, id ∈ known.identities → ∀ taskId,
      Spent counts s.depot.store ⟨taskId, id.workflowRunId, id.unitId⟩ := fun read =>
    accounted.spent pass rfl read
  cases q with
  | deleteCheckpointLineage id =>
      refine ⟨?_, fun o own gone => absurd own gone, fun a own gone => absurd own gone,
        fun p own gone => absurd own gone⟩
      intro i own gone
      obtain rfl : i = id := by simpa using mem_of_not_mem_filter own gone
      exact spent allowed i.taskId
  | deleteOperations id =>
      refine ⟨fun i own gone => absurd own gone, ?_, fun a own gone => absurd own gone,
        fun p own gone => absurd own gone⟩
      intro o own gone
      obtain rfl : o.identity = id := by simpa using mem_of_not_mem_filter own gone
      exact spent allowed o.identity.taskId
  | deleteManagedUnit id =>
      refine ⟨fun i own gone => absurd own gone, fun o own gone => absurd own gone,
        fun a own gone => absurd own gone, ?_⟩
      intro p own gone
      obtain rfl : p.identity = id := by simpa using mem_of_not_mem_filter own gone
      exact spent allowed p.identity.taskId
  | deleteUnit run unit =>
      refine ⟨fun i own gone => absurd own gone, fun o own gone => absurd own gone, ?_,
        fun p own gone => absurd own gone⟩
      intro a own gone taskId
      have same : a.workflowRunId = run ∧ a.unitId = unit := by
        simpa using mem_of_not_mem_filter own gone
      obtain ⟨id, read, rfl, rfl⟩ := allowed
      rw [same.1, same.2]
      exact spent read taskId
  | _ => exact ⟨fun i own gone => absurd own gone, fun o own gone => absurd own gone,
      fun a own gone => absurd own gone, fun p own gone => absurd own gone⟩

/-- Generation deletes nothing. -/
theorem work_grows (d : Depot) (b : StableGenerationBatch) (w : Work) :
    d.checkpoints ⊆ (d.work b w).checkpoints ∧ d.operations ⊆ (d.work b w).operations ∧
      d.artifacts ⊆ (d.work b w).artifacts ∧ d.prompts ⊆ (d.work b w).prompts := by
  cases w with
  | operation operationId =>
      unfold Depot.work
      dsimp only
      split
      · exact ⟨fun _ own => own, fun _ own => own, fun _ own => own, fun _ own => own⟩
      · exact ⟨fun _ own => own, List.subset_append_left _ _, fun _ own => own, fun _ own => own⟩
  | checkpoint =>
      exact ⟨fun _ own => List.mem_insert_of_mem own, fun _ own => own, fun _ own => own, fun _ own => own⟩
  | artifact operationId =>
      exact ⟨fun _ own => own, fun _ own => own, fun _ own => List.mem_insert_of_mem own, fun _ own => own⟩
  | prompt operationId =>
      exact ⟨fun _ own => own, fun _ own => own, fun _ own => own, fun _ own => List.mem_insert_of_mem own⟩

/-- No step deletes what is not spent. -/
theorem spares_step (accounted : Accounted counts s) (deed : Deed) :
    Spares counts s.depot (s.step sha pyInt deed).depot := by
  have same : ∀ d : Depot, d.checkpoints = s.depot.checkpoints → d.operations = s.depot.operations →
      d.artifacts = s.depot.artifacts → d.prompts = s.depot.prompts → Spares counts s.depot d := by
    intro d checkpoints operations artifacts prompts
    refine ⟨?_, ?_, ?_, ?_⟩
    · exact fun i own gone => absurd (checkpoints ▸ own) gone
    · exact fun o own gone => absurd (operations ▸ own) gone
    · exact fun a own gone => absurd (artifacts ▸ own) gone
    · exact fun p own gone => absurd (prompts ▸ own) gone
  cases deed with
  | op o => exact same _ rfl rfl rfl rfl
  | prune args => exact same _ rfl rfl rfl rfl
  | fail n => exact same _ rfl rfl rfl rfl
  | work b w =>
      simp only [Site.step]
      split
      · obtain ⟨checkpoints, operations, artifacts, prompts⟩ := work_grows s.depot b w
        exact ⟨fun i own gone => absurd (checkpoints own) gone, fun o own gone => absurd (operations own) gone,
          fun a own gone => absurd (artifacts own) gone, fun p own gone => absurd (prompts own) gone⟩
      · exact same _ rfl rfl rfl rfl
  | go n =>
      rcases found : s.passes[n]? with _ | ⟨_ | _ | ⟨q, next⟩, known⟩ <;> simp only [Site.step, found]
      · exact same _ rfl rfl rfl rfl
      · exact same _ rfl rfl rfl rfl
      · exact same _ rfl rfl rfl rfl
      · exact spares_query accounted (List.mem_of_getElem? found)

theorem work_store (d : Depot) (b : StableGenerationBatch) (w : Work) : (d.work b w).store = d.store := by
  cases w with
  | operation operationId =>
      unfold Depot.work
      dsimp only
      split <;> rfl
  | _ => rfl

theorem mem_work_operations {d : Depot} {b : StableGenerationBatch} {w : Work} {o : OperationRow}
    (member : o ∈ (d.work b w).operations) : o ∈ d.operations ∨ o.identity = batchIdentity b := by
  cases w with
  | operation operationId =>
      unfold Depot.work at member
      dsimp only at member
      split at member
      · exact .inl member
      · rcases List.mem_append.mp member with old | new
        · exact .inl old
        · exact .inr (by rw [List.mem_singleton.mp new])
  | _ => exact .inl member

/-- The batches that are handed out are of runs that their tasks use. -/
theorem uses_of_handed {store : Store} {o : Op} {b : StableGenerationBatch}
    (member : b ∈ handed sha store o) :
    (Generation.step sha pyInt store o).Uses b.repoTaskId b.workflowRunId := by
  cases o with
  | ensure args =>
      unfold handed at member
      dsimp only at member
      split at member
      · rename_i batches ok
        exact uses_of_ensured (Prod.ext ok rfl) member
      · cases member
  | _ => cases member

/-- What the passes have read stays backed by an operation. -/
theorem Backed.step {store : Store} {k : Known} (backed : Backed store k) (o : Op) :
    Backed (Generation.step sha pyInt store o) k := by
  intro id read
  rcases backed id read with ⟨found, uses⟩ | old
  · exact .inl ⟨found, uses_step o uses⟩
  · exact .inr (superseded_step o old)

/-- A pass that executes a query goes on watching its tasks, and those it finds. -/
theorem watched_query {q : Query} {next : q.Answer → Pruning WorkflowPruneResult} {known : Known} {n : ℕ}
    (found : s.passes[n]? = some ⟨.stmt q next, known⟩)
    (finished : ∀ t ∈ s.watched, Finished counts s.depot.store t) (finds : Finds counts s (.go n)) :
    ∀ t ∈ (Pass.mk (next (q.exec s.depot).1) (known.learn q (q.exec s.depot).1)).watched,
      Finished counts s.depot.store t := by
  have before : ∀ t ∈ known.taskIds, Finished counts s.depot.store t := fun t own =>
    finished t (List.mem_flatMap.mpr ⟨_, List.mem_of_getElem? found, own⟩)
  intro t watched
  have read : t ∈ (known.learn q (q.exec s.depot).1).taskIds := by
    unfold Pass.watched at watched
    split at watched
    · exact watched
    · cases watched
  cases q with
  | eligibleTerminalTaskIds cutoff =>
      unfold Finds at finds
      dsimp only at finds
      rw [found] at finds
      rcases List.mem_append.mp read with old | new
      · exact before t old
      · exact finds t new
  | _ => exact before t read

/-- Every step keeps the account. -/
theorem accounted_step (accounted : Accounted counts s) {deed : Deed}
    (undisturbed : Undisturbed sha pyInt counts s deed) (finds : Finds counts s deed) :
    Accounted counts (s.step sha pyInt deed) := by
  cases deed with
  | op o =>
      obtain ⟨fresh, kept⟩ := undisturbed
      refine ⟨traced_step accounted.traced fresh, ?_, ?_, ?_, kept⟩
      · exact fun row own => uses_step o (accounted.operations row own)
      · intro b member
        rcases List.mem_append.mp member with old | new
        · exact uses_step o (accounted.batches b old)
        · exact uses_of_handed new
      · intro p pass
        obtain ⟨sure, backed⟩ := accounted.passes p pass
        exact ⟨sure, backed.step o⟩
  | work b w =>
      simp only [Site.step]
      split
      · rename_i given
        have same := work_store s.depot b w
        refine ⟨?_, ?_, ?_, ?_, ?_⟩ <;> dsimp only [Site.watched] <;> rw [same]
        · exact accounted.traced
        · intro o member
          rcases mem_work_operations member with old | new
          · exact accounted.operations o old
          · rw [new]
            exact accounted.batches b given
        · exact accounted.batches
        · exact accounted.passes
        · exact accounted.finished
      · exact accounted
  | prune args =>
      refine ⟨accounted.traced, accounted.operations, accounted.batches, ?_, ?_⟩
      · intro p pass
        rcases List.mem_append.mp pass with old | new
        · exact accounted.passes p old
        · rw [List.mem_singleton.mp new]
          exact ⟨sure_pruneWorkflows args, fun id none_ => nomatch none_⟩
      · intro t watched
        obtain ⟨p, pass, own⟩ := List.mem_flatMap.mp watched
        rcases List.mem_append.mp pass with old | new
        · exact accounted.finished t (List.mem_flatMap.mpr ⟨p, old, own⟩)
        · rw [List.mem_singleton.mp new] at own
          unfold Pass.watched at own
          split at own <;> cases own
  | fail n =>
      have still : ∀ p ∈ s.passes.eraseIdx n, p ∈ s.passes := fun p => List.mem_of_mem_eraseIdx
      refine ⟨accounted.traced, accounted.operations, accounted.batches, ?_, ?_⟩
      · exact fun p pass => accounted.passes p (still p pass)
      · intro t watched
        obtain ⟨p, pass, own⟩ := List.mem_flatMap.mp watched
        exact accounted.finished t (List.mem_flatMap.mpr ⟨p, still p pass, own⟩)
  | go n =>
      rcases found : s.passes[n]? with _ | ⟨_ | _ | ⟨q, next⟩, known⟩ <;> simp only [Site.step, found]
      · exact accounted
      · exact accounted
      · exact accounted
      · obtain ⟨sure, backed⟩ := accounted.passes _ (List.mem_of_getElem? found)
        refine ⟨?_, ?_, ?_, ?_, ?_⟩ <;> dsimp only [Site.watched] <;> rw [exec_store]
        · exact accounted.traced
        · exact fun o own => accounted.operations o (exec_operations q s.depot own)
        · exact accounted.batches
        · intro p pass
          rcases List.mem_or_eq_of_mem_set pass with old | rfl
          · exact accounted.passes p old
          · exact ⟨sure.2 _, backed.learn accounted.operations sure.1⟩
        · intro t watched
          obtain ⟨p, pass, own⟩ := List.mem_flatMap.mp watched
          rcases List.mem_or_eq_of_mem_set pass with old | rfl
          · exact accounted.finished t (List.mem_flatMap.mpr ⟨p, old, own⟩)
          · exact watched_query found accounted.finished finds t own

end Steps

/-! Runs. -/

theorem accounted_initial (counts : RepoStatus → Prop) (runnerIds : List String) :
    Accounted counts (initialSite runnerIds) where
  traced := by
    have unused : ∀ t run, ¬ (initialSite runnerIds).depot.store.Uses t run := by
      rintro t run (⟨unit, current⟩ | ⟨s, none_, -⟩)
      · obtain ⟨c, none_, -⟩ := current_iff.mp current
        cases none_
      · cases none_
    exact ⟨fun one => absurd one (unused _ _), fun old => absurd (.inr old) (unused _ _)⟩
  operations := fun o none_ => nomatch none_
  batches := fun b none_ => nomatch none_
  passes := fun p none_ => nomatch none_
  finished := fun t none_ => nomatch none_

/-- The tasks that a pass finds have the statuses it looks for. -/
theorem finds_retentionTerminal (s : Site) (deed : Deed) : Finds RetentionTerminal s deed := by
  unfold Finds
  split
  · split
    · rename_i cutoff _ _ _
      intro t found row present
      obtain ⟨r, listed, rfl⟩ := List.mem_map.mp ((List.mem_insertionSort _).mp found)
      obtain ⟨own, eligible⟩ := List.mem_filter.mp listed
      rw [Option.mem_def, Table.find?_mem own] at present
      rw [← Option.some.inj present]
      exact (of_decide_eq_true eligible).1
    · trivial
  · trivial

section Main
variable (sha : Sha256) (pyInt : Json → Option ℤ) (runnerIds : List String) (deeds : List Deed)

theorem alwaysSpares_of_undisturbed (counts : RepoStatus → Prop)
    (undisturbed : Meets (Site.step sha pyInt) (Undisturbed sha pyInt counts) (initialSite runnerIds) deeds)
    (finds : Meets (Site.step sha pyInt) (Finds counts) (initialSite runnerIds) deeds) :
    AlwaysSpares sha pyInt counts (initialSite runnerIds) deeds := by
  apply meets_of_invariant _ (P := Accounted counts) _ _ _ _ (accounted_initial counts runnerIds)
    (meets_and _ _ _ undisturbed finds)
  · exact fun s deed accounted _ => spares_step accounted deed
  · exact fun s deed accounted ⟨kept, found⟩ => accounted_step accounted kept found

/-- No pass ever deletes what the current batch of a task under way is kept under,
as long as no task that a pass has found is taken up again before the pass ends, and
every new run is new to the database. A stopped task is one that is not under way, as
the retention has it; it is spared too as long as no pass finds a stopped task. -/
theorem retention_spares :
    (Meets (Site.step sha pyInt) (Undisturbed sha pyInt RetentionTerminal) (initialSite runnerIds) deeds →
      AlwaysSpares sha pyInt RetentionTerminal (initialSite runnerIds) deeds) ∧
    (Meets (Site.step sha pyInt) (Undisturbed sha pyInt RepoStatus.Terminal) (initialSite runnerIds) deeds →
      Meets (Site.step sha pyInt) (Finds RepoStatus.Terminal) (initialSite runnerIds) deeds →
      AlwaysSpares sha pyInt RepoStatus.Terminal (initialSite runnerIds) deeds) := by
  constructor
  · intro undisturbed
    apply alwaysSpares_of_undisturbed sha pyInt runnerIds deeds RetentionTerminal undisturbed
    exact meets_mono _ (fun s deed _ => finds_retentionTerminal s deed) _ _ undisturbed
  · exact alwaysSpares_of_undisturbed sha pyInt runnerIds deeds RepoStatus.Terminal

end Main

/-! A task that is taken up again while a pass is under way. -/

instance (s : Stmt) : Decidable (Plain s) := by
  cases s <;> unfold Plain <;> infer_instance

/-- The steps of a call that nothing interrupts. -/
def callDeeds (p : TaskProg Unit) (s : Site) : List Deed :=
  (p.executed Stmt.exec s.depot.store.world).flatMap fun stmt =>
    if plain : Plain stmt then [.op (.stmt stmt plain)] else []

def sampleBatch : StableGenerationBatch := ⟨1, someUuid.text, unitId sampleSha 1 ["A"], ["A"], [1]⟩

/-- The steps, and after them those of a call. -/
def andThen (deeds : List Deed) (p : TaskProg Unit) : List Deed :=
  deeds ++ callDeeds p (run (Site.step sampleSha fun _ => none) (initialSite ["daemon"]) deeds)

def createSample : TaskProg Unit := do
  let _ ← (ask (.createRepoTask "/repo" 100 none) : TaskProg ℕ)
  ask (.createClassTask 1 "A" 100)

/-- A task is created and generated, it ends, forty days go by, and a pass starts. -/
def endedDeeds (ending : TaskProg Unit) : List Deed :=
  andThen (andThen [] createSample ++
    [.op (.ensure ⟨1, ["A"], 1, none, someUuid⟩), .work sampleBatch (.operation "op"),
      .work sampleBatch .checkpoint, .work sampleBatch (.artifact "op")]) ending ++
  [.op (.stmt (.pass 3456000000000) trivial), .prune {}]

/-- The task is resumed after the pass has found it. -/
def resumedDeeds : List Deed :=
  andThen (endedDeeds (markStopped 1) ++ List.replicate 2 (.go 0)) (resumeTask 1) ++
    List.replicate 3 (.go 0)

/-- Without the resumption the pass deletes what the task has left, stopped or completed. -/
theorem ended_spared :
    AlwaysSpares sampleSha (fun _ => none) RetentionTerminal (initialSite ["daemon"])
        (endedDeeds (markStopped 1) ++ List.replicate 8 (.go 0)) ∧
      AlwaysSpares sampleSha (fun _ => none) RepoStatus.Terminal (initialSite ["daemon"])
        (endedDeeds (markCompleted 1 "done") ++ List.replicate 8 (.go 0)) := by
  constructor
  · apply (retention_spares sampleSha (fun _ => none) ["daemon"] _).1
    decide +kernel
  · apply (retention_spares sampleSha (fun _ => none) ["daemon"] _).2
    · decide +kernel
    · decide +kernel

/-- The pass deletes the checkpoint of the batch that the resumed task is queued for. -/
theorem resumed_checkpoint_deleted :
    ¬ AlwaysSpares sampleSha (fun _ => none) RetentionTerminal (initialSite ["daemon"])
      (resumedDeeds ++ [.go 0]) := by
  intro always
  have step := ((meets_append _ _ _ _).mp always).2.1
  have spent := step.checkpoints (batchIdentity sampleBatch) (by decide +kernel) (by decide +kernel)
    (by decide +kernel)
  revert spent
  decide +kernel

end Uta.Retention
