/- The queue of the service: what the objects, the claims and the slots have to do
with each other, and what each block under the lock keeps of it. -/
import Uta.Ci.Service

namespace Uta.Ci

namespace Service
variable {st : Service} {a b id : ℕ} {r : CiTaskRecord} {f : CiTaskRecord → CiTaskRecord}

/-! Objects. -/

theorem at?_update (st : Service) (a b : ℕ) (f : CiTaskRecord → CiTaskRecord) :
    (st.update a f).at? b = if a = b then (st.at? b).map f else st.at? b := by
  unfold at? update
  rw [List.getElem?_modify]
  split
  · next same => rfl
  · next other => simp

@[simp] theorem at?_put (st : Service) (r : CiTaskRecord) (b : ℕ) : (st.put r).at? b = st.at? b := rfl

@[simp] theorem saveNow_rest (st : Service) (a : ℕ) :
    (st.saveNow a).heap = st.heap ∧ (st.saveNow a).tasks = st.tasks ∧
      (st.saveNow a).active = st.active ∧ (st.saveNow a).stopRequested = st.stopRequested ∧
      (st.saveNow a).runs = st.runs ∧ (st.saveNow a).checks = st.checks ∧
      (st.saveNow a).parallelLimit = st.parallelLimit := by
  unfold saveNow
  split
  · exact ⟨rfl, rfl, rfl, rfl, rfl, rfl, rfl⟩
  · exact ⟨rfl, rfl, rfl, rfl, rfl, rfl, rfl⟩

theorem cached_some (cached : st.cached id = some a) : (id, a) ∈ st.tasks := by
  obtain ⟨e, found, rfl⟩ := Option.map_eq_some_iff.mp cached
  have own : e.1 = id := by simpa using List.find?_some found
  rw [← own]
  exact List.mem_of_find?_eq_some found

/-- A new object is found under its id, and hides no other. -/
theorem cached_cache (fresh : st.cached r.taskId = none) (id : ℕ) :
    (st.cache r).cached id = if r.taskId = id then some st.heap.length else st.cached id := by
  unfold cached cache
  dsimp only
  rw [if_pos fresh, List.find?_append]
  split
  · next own =>
    subst own
    have absent : st.tasks.find? (fun e => e.1 = r.taskId) = none := by
      simpa only [cached, Option.map_eq_none_iff] using fresh
    rw [absent]
    simp
  · next other =>
    have last : [(r.taskId, st.heap.length)].find? (fun e => e.1 = id) = none := by simp [other]
    rw [last, Option.or_none]

theorem at?_cache (st : Service) (r : CiTaskRecord) (b : ℕ) :
    (st.cache r).at? b = if b = st.heap.length then some r else st.at? b := by
  unfold at? cache
  dsimp only
  split
  · next last => rw [last, List.getElem?_concat_length]
  · next other =>
    rcases Nat.lt_or_gt_of_ne other with below | above
    · exact List.getElem?_append_left below
    · have beyond : (st.heap ++ [r]).length ≤ b := by
        rw [List.length_append, List.length_singleton]
        omega
      rw [List.getElem?_eq_none beyond, List.getElem?_eq_none above.le]

theorem cached_freshId (objects : ∀ id a, st.cached id = some a → ∃ r, st.at? a = some r ∧ r.taskId = id) :
    st.cached st.freshId = none := by
  cases cached : st.cached st.freshId with
  | none => rfl
  | some a =>
      obtain ⟨r, here, own⟩ := objects _ a cached
      have member : r ∈ st.heap ++ st.files := List.mem_append_left _ (List.mem_of_getElem? here)
      have bound : ∀ xs : List ℕ, ∀ x ∈ xs, x ≤ xs.foldr max 0 := by
        intro xs
        induction xs with
        | nil => exact fun x none_ => (nomatch none_)
        | cons y xs ih =>
            intro x inside
            rcases List.mem_cons.mp inside with rfl | later
            · exact le_max_left _ _
            · exact (ih x later).trans (le_max_right _ _)
      have below := bound _ _ (List.mem_map_of_mem (f := CiTaskRecord.taskId) member)
      unfold freshId at own
      omega

/-- The ids of objects. -/
def idsOf (st : Service) (objects : List ℕ) : List ℕ :=
  objects.filterMap fun a => (st.at? a).map CiTaskRecord.taskId

theorem idsOf_cons (here : st.at? a = some r) (objects : List ℕ) :
    st.idsOf (a :: objects) = r.taskId :: st.idsOf objects := by
  unfold idsOf
  rw [List.filterMap_cons, here]
  rfl

/-! The scan. -/

theorem mem_queueRecords (cached : st.cached id = some a) (here : st.at? a = some r) (listed : List ℕ) : (some a, r) ∈ st.queueRecords listed := by
  unfold queueRecords
  dsimp only
  by_cases known : id ∈ (listed.filterMap st.load).map CiTaskRecord.taskId
  · obtain ⟨x, summary, same⟩ := List.mem_map.mp known
    apply List.mem_append_left
    refine List.mem_map.mpr ⟨x, summary, ?_⟩
    rw [same, cached, Option.bind_some, here, Option.map_some]
  · apply List.mem_append_right
    refine List.mem_filterMap.mpr ⟨(id, a), cached_some cached, ?_⟩
    rw [if_neg known]
    exact (congrArg (Option.map _) here).trans rfl

theorem queueRecords_object {listed : List ℕ} (member : (some a, r) ∈ st.queueRecords listed) :
    st.at? a = some r := by
  rcases List.mem_append.mp member with summary | object
  · obtain ⟨x, _, same⟩ := List.mem_map.mp summary
    split at same
    · next e found =>
      subst same
      obtain ⟨b, _, mapped⟩ := Option.bind_eq_some_iff.mp found
      obtain ⟨y, here, pair⟩ := Option.map_eq_some_iff.mp mapped
      obtain ⟨own, rfl⟩ := Prod.mk.inj pair
      obtain rfl := Option.some.inj own
      exact here
    · cases same
  · obtain ⟨e, _, kept⟩ := List.mem_filterMap.mp object
    split at kept
    · cases kept
    · obtain ⟨y, here, pair⟩ := Option.map_eq_some_iff.mp kept
      obtain ⟨same, rfl⟩ := Prod.mk.inj pair
      obtain rfl := Option.some.inj same
      exact here

theorem queueRecords_summary {listed : List ℕ} (member : (none, r) ∈ st.queueRecords listed) :
    (st.cached r.taskId).bind st.at? = none ∧ ∃ id, st.load id = some r := by
  rcases List.mem_append.mp member with summary | object
  · obtain ⟨x, read, same⟩ := List.mem_map.mp summary
    obtain ⟨id, _, loaded⟩ := List.mem_filterMap.mp read
    split at same
    · next e found =>
      subst same
      obtain ⟨b, _, mapped⟩ := Option.bind_eq_some_iff.mp found
      obtain ⟨y, _, pair⟩ := Option.map_eq_some_iff.mp mapped
      cases pair
    · next absent =>
      obtain rfl : x = r := (Prod.mk.inj same).2
      refine ⟨?_, id, loaded⟩
      cases cached : st.cached x.taskId with
      | none => rfl
      | some b =>
          rw [cached, Option.bind_some, Option.map_eq_none_iff] at absent
          exact absent
  · obtain ⟨e, _, kept⟩ := List.mem_filterMap.mp object
    split at kept
    · cases kept
    · obtain ⟨y, _, pair⟩ := Option.map_eq_some_iff.mp kept
      cases pair

theorem firstPending_mem {listed : List ℕ} {e : Option ℕ × CiTaskRecord}
    (first : st.firstPending listed = some e) : e ∈ st.queueRecords listed ∧ e.2.status.Waiting := by
  have member := List.argmin_mem first
  simpa using List.mem_filter.mp member

end Service

/-! The invariant. -/

/-- `held` are the claimed objects, and `unrun` those whose check was not run yet. -/
structure Sound (st : Service) (held unrun : List ℕ) : Prop where
  objects : ∀ a r, st.at? a = some r → st.cached r.taskId = some a
  tasked : ∀ id a, st.cached id = some a → ∃ r, st.at? a = some r ∧ r.taskId = id
  heldNodup : held.Nodup
  unrunNodup : unrun.Nodup
  unrunHeld : ∀ a ∈ unrun, a ∈ held
  busy : ∀ a ∈ held, ∃ r, st.at? a = some r ∧ ¬ r.status.Waiting
  ran : ∀ id ∈ st.runs, ∃ a r, st.at? a = some r ∧ r.taskId = id ∧ ¬ r.status.Waiting
  unran : ∀ a ∈ unrun, ∀ r, st.at? a = some r → r.taskId ∉ st.runs
  runsNodup : st.runs.Nodup
  active : ∀ id ∈ st.active, ∃ a ∈ held, ∃ r, st.at? a = some r ∧ r.taskId = id
  slots : ∀ a ∈ held, ∀ r, st.at? a = some r → r.taskId ∈ st.active ∨ r.taskId ∈ st.stopRequested
  bounded : 0 < st.parallelLimit → (st.active.card : ℤ) ≤ st.parallelLimit
  checks : st.checks.Perm (st.idsOf held)

namespace Sound
variable {st : Service} {held unrun : List ℕ} {a b : ℕ} {r : CiTaskRecord}

/-- One object stands for an id. -/
theorem same_object (sound : Sound st held unrun) {x : CiTaskRecord} (here : st.at? a = some r)
    (there : st.at? b = some x) (same : x.taskId = r.taskId) : b = a := by
  have first := sound.objects a r here
  have second := sound.objects b x there
  rw [same, first] at second
  exact (Option.some.inj second).symm

theorem perm (sound : Sound st held unrun) {held' unrun' : List ℕ} (holders : held'.Perm held)
    (rest : unrun'.Perm unrun) : Sound st held' unrun' where
  objects := sound.objects
  tasked := sound.tasked
  heldNodup := holders.nodup_iff.mpr sound.heldNodup
  unrunNodup := rest.nodup_iff.mpr sound.unrunNodup
  unrunHeld a member := holders.mem_iff.mpr (sound.unrunHeld a (rest.mem_iff.mp member))
  busy a member := sound.busy a (holders.mem_iff.mp member)
  ran := sound.ran
  unran a member := sound.unran a (rest.mem_iff.mp member)
  runsNodup := sound.runsNodup
  active id member := by
    obtain ⟨a, claimed, object⟩ := sound.active id member
    exact ⟨a, holders.mem_iff.mpr claimed, object⟩
  slots a member := sound.slots a (holders.mem_iff.mp member)
  bounded := sound.bounded
  checks := sound.checks.trans (holders.symm.filterMap _)

/-- The files, the temporary files and the markers do not matter. -/
theorem congr (sound : Sound st held unrun) {other : Service} (heap : other.heap = st.heap)
    (tasks : other.tasks = st.tasks) (active : other.active = st.active)
    (stopped : other.stopRequested = st.stopRequested) (runs : other.runs = st.runs)
    (checks : other.checks = st.checks) (limit : other.parallelLimit = st.parallelLimit) :
    Sound other held unrun := by
  have at_ : ∀ a, other.at? a = st.at? a := fun a => congrArg (·[a]?) heap
  have cached : ∀ id, other.cached id = st.cached id := by
    intro id
    rw [Service.cached, tasks]
    rfl
  constructor
  · simpa only [at_, cached] using sound.objects
  · simpa only [at_, cached] using sound.tasked
  · exact sound.heldNodup
  · exact sound.unrunNodup
  · exact sound.unrunHeld
  · simpa only [at_] using sound.busy
  · simpa only [at_, runs] using sound.ran
  · simpa only [at_, runs] using sound.unran
  · simpa only [runs] using sound.runsNodup
  · simpa only [at_, active] using sound.active
  · simpa only [at_, active, stopped] using sound.slots
  · simpa only [active, limit] using sound.bounded
  · simpa only [Service.idsOf, at_, checks] using sound.checks

theorem saveNow (sound : Sound st held unrun) (a : ℕ) : Sound (st.saveNow a) held unrun := by
  obtain ⟨heap, tasks, active, stopped, runs, checks, limit⟩ := Service.saveNow_rest st a
  exact sound.congr heap tasks active stopped runs checks limit

/-- A claimed record, or one whose check was run, does not wait again. -/
theorem update (sound : Sound st held unrun) {f : CiTaskRecord → CiTaskRecord}
    (same : ∀ r, (f r).taskId = r.taskId)
    (settled : ∀ r, st.at? a = some r → a ∈ held ∨ r.taskId ∈ st.runs → ¬ r.status.Waiting →
      ¬ (f r).status.Waiting) : Sound (st.update a f) held unrun := by
  have forward : ∀ b r, st.at? b = some r → ∃ x, (st.update a f).at? b = some x ∧
      x.taskId = r.taskId ∧ (b ∈ held ∨ r.taskId ∈ st.runs → ¬ r.status.Waiting →
        ¬ x.status.Waiting) := by
    intro b r here
    rw [Service.at?_update]
    split
    · next own =>
      subst own
      exact ⟨f r, by rw [here]; rfl, same r, settled r here⟩
    · exact ⟨r, here, rfl, fun _ waits => waits⟩
  have backward : ∀ b x, (st.update a f).at? b = some x →
      ∃ r, st.at? b = some r ∧ x.taskId = r.taskId := by
    intro b x here
    rw [Service.at?_update] at here
    split at here
    · obtain ⟨r, before, rfl⟩ := Option.map_eq_some_iff.mp here
      exact ⟨r, before, same r⟩
    · exact ⟨x, here, rfl⟩
  have ids : ∀ b, ((st.update a f).at? b).map CiTaskRecord.taskId =
      (st.at? b).map CiTaskRecord.taskId := by
    intro b
    rw [Service.at?_update]
    split
    · cases st.at? b with
      | none => rfl
      | some r => exact congrArg some (same r)
    · rfl
  constructor
  · intro b x here
    obtain ⟨r, before, own⟩ := backward b x here
    rw [own]
    exact sound.objects b r before
  · intro id b cached
    obtain ⟨r, before, own⟩ := sound.tasked id b cached
    obtain ⟨x, after, kept, _⟩ := forward b r before
    exact ⟨x, after, kept.trans own⟩
  · exact sound.heldNodup
  · exact sound.unrunNodup
  · exact sound.unrunHeld
  · intro b claimed
    obtain ⟨r, before, waits⟩ := sound.busy b claimed
    obtain ⟨x, after, _, settles⟩ := forward b r before
    exact ⟨x, after, settles (.inl claimed) waits⟩
  · intro id member
    obtain ⟨b, r, before, own, waits⟩ := sound.ran id member
    obtain ⟨x, after, kept, settles⟩ := forward b r before
    exact ⟨b, x, after, kept.trans own, settles (.inr (own ▸ member)) waits⟩
  · intro b waiting x here
    obtain ⟨r, before, own⟩ := backward b x here
    rw [own]
    exact sound.unran b waiting r before
  · exact sound.runsNodup
  · intro id member
    obtain ⟨b, claimed, r, before, own⟩ := sound.active id member
    obtain ⟨x, after, kept, _⟩ := forward b r before
    exact ⟨b, claimed, x, after, kept.trans own⟩
  · intro b claimed x here
    obtain ⟨r, before, own⟩ := backward b x here
    rw [own]
    exact sound.slots b claimed r before
  · exact sound.bounded
  · refine sound.checks.trans (List.Perm.of_eq ?_)
    simp only [Service.idsOf, ids]

theorem cache (sound : Sound st held unrun) (fresh : st.cached r.taskId = none) :
    Sound (st.cache r) held unrun := by
  have old : ∀ b x, st.at? b = some x → (st.cache r).at? b = some x := by
    intro b x here
    rw [Service.at?_cache, if_neg]
    · exact here
    · rintro rfl
      rw [Service.at?, List.getElem?_eq_none le_rfl] at here
      cases here
  have kept : ∀ b x, b ∈ held → (st.cache r).at? b = some x → st.at? b = some x := by
    intro b x claimed here
    obtain ⟨y, before, _⟩ := sound.busy b claimed
    rw [old b y before] at here
    rw [before]
    exact here
  constructor
  · intro b x here
    rw [Service.cached_cache fresh]
    rw [Service.at?_cache] at here
    split at here
    · next last =>
      obtain rfl := Option.some.inj here
      rw [if_pos rfl, last]
    · have before := sound.objects b x here
      rw [if_neg, before]
      intro same
      rw [← same, fresh] at before
      cases before
  · intro id b cached
    rw [Service.cached_cache fresh] at cached
    split at cached
    · next own =>
      obtain rfl := Option.some.inj cached
      exact ⟨r, by rw [Service.at?_cache, if_pos rfl], own⟩
    · obtain ⟨x, before, own⟩ := sound.tasked id b cached
      exact ⟨x, old b x before, own⟩
  · exact sound.heldNodup
  · exact sound.unrunNodup
  · exact sound.unrunHeld
  · intro b claimed
    obtain ⟨x, before, waits⟩ := sound.busy b claimed
    exact ⟨x, old b x before, waits⟩
  · intro id member
    obtain ⟨b, x, before, own, waits⟩ := sound.ran id member
    exact ⟨b, x, old b x before, own, waits⟩
  · intro b waiting x here
    exact sound.unran b waiting x (kept b x (sound.unrunHeld b waiting) here)
  · exact sound.runsNodup
  · intro id member
    obtain ⟨b, claimed, x, before, own⟩ := sound.active id member
    exact ⟨b, claimed, x, old b x before, own⟩
  · intro b claimed x here
    exact sound.slots b claimed x (kept b x claimed here)
  · exact sound.bounded
  · refine sound.checks.trans (List.Perm.of_eq ?_)
    apply List.filterMap_congr
    intro b claimed
    obtain ⟨x, before, _⟩ := sound.busy b claimed
    rw [before, old b x before]

/-- A record that waits is not claimed, has no slot, and its check was not run. -/
theorem waiting (sound : Sound st held unrun) (here : st.at? a = some r) (waits : r.status.Waiting) :
    a ∉ held ∧ r.taskId ∉ st.active ∧ r.taskId ∉ st.runs := by
  have unclaimed : a ∉ held := by
    intro claimed
    obtain ⟨x, there, settled⟩ := sound.busy a claimed
    rw [here] at there
    obtain rfl := Option.some.inj there
    exact settled waits
  refine ⟨unclaimed, ?_, ?_⟩
  · intro active
    obtain ⟨b, claimed, x, there, own⟩ := sound.active _ active
    rw [sound.same_object here there own] at claimed
    exact unclaimed claimed
  · intro ran
    obtain ⟨b, x, there, own, settled⟩ := sound.ran _ ran
    rw [sound.same_object here there own, here] at there
    obtain rfl := Option.some.inj there
    exact settled waits

/-- A free record takes a free slot. -/
theorem take (sound : Sound st held unrun) (here : st.at? a = some r) (settled : ¬ r.status.Waiting)
    (unclaimed : a ∉ held) (inactive : r.taskId ∉ st.active) (unrun_ : r.taskId ∉ st.runs)
    (room : 0 < st.parallelLimit → (st.active.card : ℤ) < st.parallelLimit) :
    Sound { st with active := insert r.taskId st.active, checks := st.checks ++ [r.taskId] }
      (a :: held) (a :: unrun) where
  objects := sound.objects
  tasked := sound.tasked
  heldNodup := List.nodup_cons.mpr ⟨unclaimed, sound.heldNodup⟩
  unrunNodup := List.nodup_cons.mpr ⟨fun member => unclaimed (sound.unrunHeld a member), sound.unrunNodup⟩
  unrunHeld b member := by
    rcases List.mem_cons.mp member with rfl | later
    · exact List.mem_cons_self
    · exact List.mem_cons_of_mem _ (sound.unrunHeld b later)
  busy b member := by
    rcases List.mem_cons.mp member with rfl | later
    · exact ⟨r, here, settled⟩
    · exact sound.busy b later
  ran := sound.ran
  unran b member x there := by
    rcases List.mem_cons.mp member with rfl | later
    · obtain rfl := Option.some.inj (here.symm.trans there)
      exact unrun_
    · exact sound.unran b later x there
  runsNodup := sound.runsNodup
  active id member := by
    rcases Finset.mem_insert.mp member with rfl | old
    · exact ⟨a, List.mem_cons_self, r, here, rfl⟩
    · obtain ⟨b, claimed, object⟩ := sound.active id old
      exact ⟨b, List.mem_cons_of_mem _ claimed, object⟩
  slots b member x there := by
    rcases List.mem_cons.mp member with rfl | later
    · obtain rfl := Option.some.inj (here.symm.trans there)
      exact .inl (Finset.mem_insert_self _ _)
    · exact (sound.slots b later x there).imp_left Finset.mem_insert_of_mem
  bounded positive := by
    have free := room positive
    have one := Finset.card_insert_of_notMem inactive
    change ((insert r.taskId st.active).card : ℤ) ≤ st.parallelLimit
    rw [one]
    omega
  checks := by
    refine (List.perm_append_comm).trans ?_
    exact (sound.checks.cons _).trans (List.Perm.of_eq (Service.idsOf_cons here held).symm)

/-- A claimed record gives its slot up, and no other one does. -/
theorem drop (sound : Sound st (a :: held) unrun) (here : st.at? a = some r) {rest : List ℕ}
    (fewer : rest.Sublist unrun) (gone : a ∉ rest) {stopped : Finset ℕ}
    (others : ∀ id ∈ st.stopRequested, id ≠ r.taskId → id ∈ stopped) :
    Sound { st with active := st.active.erase r.taskId, stopRequested := stopped,
                    checks := st.checks.erase r.taskId } held rest := by
  obtain ⟨unclaimed, nodup⟩ := List.nodup_cons.mp sound.heldNodup
  have apart : ∀ b ∈ held, ∀ x, st.at? b = some x → x.taskId ≠ r.taskId := by
    intro b claimed x there same
    rw [sound.same_object here there same] at claimed
    exact unclaimed claimed
  constructor
  · exact sound.objects
  · exact sound.tasked
  · exact nodup
  · exact fewer.nodup sound.unrunNodup
  · intro b waiting
    have claimed := sound.unrunHeld b (fewer.mem waiting)
    rcases List.mem_cons.mp claimed with rfl | later
    · exact absurd waiting gone
    · exact later
  · intro b claimed
    exact sound.busy b (List.mem_cons_of_mem _ claimed)
  · exact sound.ran
  · intro b waiting
    exact sound.unran b (fewer.mem waiting)
  · exact sound.runsNodup
  · intro id member
    obtain ⟨other, old⟩ := Finset.mem_erase.mp member
    obtain ⟨b, claimed, x, there, own⟩ := sound.active id old
    rcases List.mem_cons.mp claimed with rfl | later
    · obtain rfl := Option.some.inj (here.symm.trans there)
      exact absurd own.symm other
    · exact ⟨b, later, x, there, own⟩
  · intro b claimed x there
    have ne := apart b claimed x there
    rcases sound.slots b (List.mem_cons_of_mem _ claimed) x there with active | stop
    · exact .inl (Finset.mem_erase.mpr ⟨ne, active⟩)
    · exact .inr (others _ stop ne)
  · intro positive
    have before := sound.bounded positive
    have less := Finset.card_erase_le (s := st.active) (a := r.taskId)
    change ((st.active.erase r.taskId).card : ℤ) ≤ st.parallelLimit
    omega
  · have split := sound.checks
    rw [Service.idsOf_cons here] at split
    exact (split.erase r.taskId).trans (List.Perm.of_eq (List.erase_cons_head _ _))

/-- A stop frees the slot of its record, and requests that its check end. -/
theorem stop (sound : Sound st held unrun) (id : ℕ) :
    Sound { st with stopRequested := insert id st.stopRequested, active := st.active.erase id }
      held unrun where
  objects := sound.objects
  tasked := sound.tasked
  heldNodup := sound.heldNodup
  unrunNodup := sound.unrunNodup
  unrunHeld := sound.unrunHeld
  busy := sound.busy
  ran := sound.ran
  unran := sound.unran
  runsNodup := sound.runsNodup
  active x member := sound.active x (Finset.mem_of_mem_erase member)
  slots b claimed x there := by
    by_cases same : x.taskId = id
    · exact .inr (by rw [same]; exact Finset.mem_insert_self _ _)
    · rcases sound.slots b claimed x there with active | stopped
      · exact .inl (Finset.mem_erase.mpr ⟨same, active⟩)
      · exact .inr (Finset.mem_insert_of_mem stopped)
  bounded positive := by
    have before := sound.bounded positive
    have less := Finset.card_erase_le (s := st.active) (a := id)
    change ((st.active.erase id).card : ℤ) ≤ st.parallelLimit
    omega
  checks := sound.checks

/-- The check of a claimed record is run. -/
theorem run (sound : Sound st held (a :: unrun)) (here : st.at? a = some r) :
    Sound { st with runs := st.runs ++ [r.taskId] } held unrun := by
  obtain ⟨done, nodup⟩ := List.nodup_cons.mp sound.unrunNodup
  have claimed := sound.unrunHeld a List.mem_cons_self
  have new := sound.unran a List.mem_cons_self r here
  constructor
  · exact sound.objects
  · exact sound.tasked
  · exact sound.heldNodup
  · exact nodup
  · intro b waiting
    exact sound.unrunHeld b (List.mem_cons_of_mem _ waiting)
  · exact sound.busy
  · intro id member
    rcases List.mem_append.mp member with old | last
    · exact sound.ran id old
    · obtain rfl := List.mem_singleton.mp last
      obtain ⟨x, there, settled⟩ := sound.busy a claimed
      obtain rfl := Option.some.inj (here.symm.trans there)
      exact ⟨a, r, here, rfl, settled⟩
  · intro b waiting x there member
    rcases List.mem_append.mp member with old | last
    · exact sound.unran b (List.mem_cons_of_mem _ waiting) x there old
    · have same := List.mem_singleton.mp last
      rw [sound.same_object here there same] at waiting
      exact done waiting
  · exact List.nodup_append.mpr ⟨sound.runsNodup, List.nodup_singleton _, by
      intro x old y last same
      rw [List.mem_singleton.mp last] at same
      exact new (same ▸ old)⟩
  · exact sound.active
  · exact sound.slots
  · exact sound.bounded
  · exact sound.checks

/-- Where the limit is not reached, there is a free slot. -/
theorem room (sound : Sound st held unrun) {listed : List ℕ} {excluded : Option ℕ}
    (below : ¬ st.LimitReached listed excluded) (out : ∀ id ∈ st.active, some id ≠ excluded) :
    0 < st.parallelLimit → (st.active.card : ℤ) < st.parallelLimit := by
  intro positive
  have counted : st.active.card ≤ st.activeCount listed excluded := by
    apply Finset.card_le_card
    intro id active
    obtain ⟨a, _, r, here, rfl⟩ := sound.active id active
    have member := Service.mem_queueRecords (sound.objects a r here) here listed
    rw [List.mem_toFinset]
    refine List.mem_map.mpr ⟨(some a, r), List.mem_filter.mpr ⟨member, ?_⟩, rfl⟩
    exact decide_eq_true ⟨out _ active, .inl active⟩
  by_contra full
  apply below
  refine ⟨positive, ?_⟩
  omega

end Sound
end Uta.Ci
