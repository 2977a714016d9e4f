/- When the accounting that is accumulated batch by batch is the accounting of all turns. -/
import Uta.Generation.TurnAccounting
import Uta.Lib.Before

namespace Uta.Generation.TurnAccounting
open Uta.Lib NestedSums

variable {ω ε : Type}

/-! One accounting. -/

/-- The session that is first seen last. -/
def newest (turns : List (Turn ω ε)) : Option String :=
  (firstSeen (turns.flatMap locators)).getLast?

/-- The session that an entry of the turn names. -/
def session (before : List (Turn ω ε)) (t : Turn ω ε) : Option String :=
  if (locators t).isEmpty then none else newest (before ++ [t])

/-- The entry of a turn, if it gives evidence. -/
def entryOf (evidence : Turn ω ε → Option ε) (before : List (Turn ω ε)) (t : Turn ω ε) :
    List (Entry ε) :=
  ((evidence t).map fun value => ⟨t.phaseName, session before t, value⟩).toList

def phaseFields (t : Turn ω ε) : Fields ω := [(t.phaseName, .map (phaseTokenBucket t.usage))]

theorem aggregate_concat (turns : List (Turn ω ε)) (t : Turn ω ε) :
    aggregateTurnAccounting (turns ++ [t]) = (aggregateTurnAccounting turns).add t := by
  rw [aggregateTurnAccounting, List.foldl_append]
  rfl

theorem aggregate_sessionIds (turns : List (Turn ω ε)) :
    (aggregateTurnAccounting turns).sessionIds = firstSeen (turns.flatMap locators) := by
  induction turns using List.reverseRecOn with
  | nil => rfl
  | append_singleton turns t ih =>
      rw [aggregate_concat, List.flatMap_append, List.flatMap_singleton, firstSeen_append, ← ih]
      rfl

theorem aggregate_sessionRefs (turns : List (Turn ω ε)) :
    (aggregateTurnAccounting turns).sessionRefs = firstSeen (turns.flatMap sessionRefs) := by
  induction turns using List.reverseRecOn with
  | nil => rfl
  | append_singleton turns t ih =>
      rw [aggregate_concat, List.flatMap_append, List.flatMap_singleton, firstSeen_append, ← ih]
      rfl

theorem total_concat (us : List (Fields ω)) (u : Fields ω) :
    total (us ++ [u]) = merge (total us) u := by
  rw [total, List.foldl_append]
  rfl

theorem aggregate_usage (turns : List (Turn ω ε)) :
    (aggregateTurnAccounting turns).sessionTokenUsage = total (turns.map Turn.usage) := by
  induction turns using List.reverseRecOn with
  | nil => rfl
  | append_singleton turns t ih =>
      rw [aggregate_concat, List.map_append, List.map_singleton, total_concat, ← ih]
      rfl

/-- The entry is the one of the newest session. -/
theorem add_entry (turns : List (Turn ω ε)) (t : Turn ω ε) (value : Option ε) :
    (value.map fun v => (⟨t.phaseName, if (sessionRefs t).isEmpty then none else
      (((sessionRefs t).map Ref.locator).foldl addNew
        (aggregateTurnAccounting turns).sessionIds).getLast?, v⟩ : Entry ε)) =
      value.map fun v => ⟨t.phaseName, session turns t, v⟩ := by
  have named : (if (sessionRefs t).isEmpty then none else
      (((sessionRefs t).map Ref.locator).foldl addNew
        (aggregateTurnAccounting turns).sessionIds).getLast?) = session turns t := by
    rw [aggregate_sessionIds, session, newest, List.flatMap_append, List.flatMap_singleton,
      firstSeen_append, locators, List.isEmpty_map]
  rw [named]

theorem aggregate_retrospect (turns : List (Turn ω ε)) :
    (aggregateTurnAccounting turns).sessionRetrospect =
      gather (entryOf Turn.retrospective) [] turns := by
  induction turns using List.reverseRecOn with
  | nil => rfl
  | append_singleton turns t ih =>
      rw [aggregate_concat, gather_concat, ← ih, List.nil_append, entryOf, ← add_entry]
      rfl

theorem aggregate_diagnostics (turns : List (Turn ω ε)) :
    (aggregateTurnAccounting turns).sessionDiagnostics =
      gather (entryOf Turn.diagnostics) [] turns := by
  induction turns using List.reverseRecOn with
  | nil => rfl
  | append_singleton turns t ih =>
      rw [aggregate_concat, gather_concat, ← ih, List.nil_append, entryOf, ← add_entry]
      rfl

theorem aggregate_patchCount (turns : List (Turn ω ε)) :
    (aggregateTurnAccounting turns).sessionPatchCount =
      (turns.map fun t => max t.patchCount 0).sum := by
  induction turns using List.reverseRecOn with
  | nil => rfl
  | append_singleton turns t ih =>
      rw [aggregate_concat, List.map_append, List.sum_append, ← ih]
      simp [Accounting.add]

/-! The usage of the phases. -/

theorem proper_phaseTokenBucket (t : Turn ω ε) : Proper (.map (phaseTokenBucket t.usage)) := by
  rw [phaseTokenBucket]
  split
  · next tokens found => exact t.distinct.get? found
  · refine List.foldlRecOn (motive := fun bucket => Proper (.map bucket)) t.usage _ .nil ?_
    intro bucket proper e _
    split
    · exact proper.put _ (.num _)
    · exact proper

theorem proper_phaseFields (t : Turn ω ε) : Proper (.map (phaseFields t)) := by
  refine .map _ (List.nodup_singleton _) ?_
  rw [phaseFields, List.forall_mem_singleton]
  exact proper_phaseTokenBucket t

/-- Each phase has a mapping, to which the bucket of the turn is summed. -/
theorem aggregate_phaseUsage (turns : List (Turn ω ε)) :
    (aggregateTurnAccounting turns).phaseTokenUsage = total (turns.map phaseFields) ∧
      ∀ key v, get? (aggregateTurnAccounting turns).phaseTokenUsage key = some v →
        ∃ fields, v = .map fields := by
  induction turns using List.reverseRecOn with
  | nil => exact ⟨rfl, nofun⟩
  | append_singleton turns t ih =>
      obtain ⟨sum, mappings⟩ := ih
      have added : (aggregateTurnAccounting (turns ++ [t])).phaseTokenUsage =
          put (aggregateTurnAccounting turns).phaseTokenUsage t.phaseName
            (.map (merge (mappingAt (aggregateTurnAccounting turns).phaseTokenUsage t.phaseName)
              (phaseTokenBucket t.usage))) := by
        rw [aggregate_concat]
        rfl
      rw [added]
      constructor
      · rw [List.map_append, List.map_singleton, total_concat, ← sum, phaseFields, merge_cons,
          merge]
        congr 1
        rw [mappingAt]
        cases found : get? (aggregateTurnAccounting turns).phaseTokenUsage t.phaseName with
        | none => rw [mergeValue_none, nil_merge (proper_phaseTokenBucket t)]
        | some v =>
            obtain ⟨fields, rfl⟩ := mappings _ v found
            rw [mergeValue]
      · intro key v found
        rw [get?_put] at found
        split at found
        · cases found
          exact ⟨_, rfl⟩
        · exact mappings key v found

/-! Accounting in batches. -/

section

variable [DecidableEq ε] (batches : List (List (Turn ω ε)))

theorem accumulate_concat (batch : List (Turn ω ε)) : accumulate (batches ++ [batch]) =
    mergeAccounting (accumulate batches) (aggregateTurnAccounting batch) := by
  rw [accumulate, List.map_append, List.foldl_append]
  rfl

theorem accumulate_sessionIds : (accumulate batches).sessionIds =
    (aggregateTurnAccounting batches.flatten).sessionIds := by
  rw [aggregate_sessionIds]
  induction batches using List.reverseRecOn with
  | nil => rfl
  | append_singleton batches batch ih =>
      rw [accumulate_concat, mergeAccounting, ih, aggregate_sessionIds, List.flatten_concat,
        List.flatMap_append, firstSeen_append_firstSeen]

theorem accumulate_sessionRefs : (accumulate batches).sessionRefs =
    (aggregateTurnAccounting batches.flatten).sessionRefs := by
  rw [aggregate_sessionRefs]
  induction batches using List.reverseRecOn with
  | nil => rfl
  | append_singleton batches batch ih =>
      rw [accumulate_concat, mergeAccounting, ih, aggregate_sessionRefs, List.flatten_concat,
        List.flatMap_append, firstSeen_append_firstSeen]

theorem accumulate_patchCount : (accumulate batches).sessionPatchCount =
    (aggregateTurnAccounting batches.flatten).sessionPatchCount := by
  rw [aggregate_patchCount]
  induction batches using List.reverseRecOn with
  | nil => rfl
  | append_singleton batches batch ih =>
      rw [accumulate_concat, mergeAccounting, ih, aggregate_patchCount, List.flatten_concat,
        List.map_append, List.sum_append]

theorem accumulate_usage : (accumulate batches).sessionTokenUsage =
    total ((batches.map fun batch => batch.map Turn.usage).map total) := by
  induction batches using List.reverseRecOn with
  | nil => rfl
  | append_singleton batches batch ih =>
      rw [accumulate_concat, mergeAccounting, ih, aggregate_usage]
      simp only [List.map_append, List.map_singleton, total_concat]

theorem accumulate_phaseUsage : (accumulate batches).phaseTokenUsage =
    total ((batches.map fun batch => batch.map phaseFields).map total) := by
  induction batches using List.reverseRecOn with
  | nil => rfl
  | append_singleton batches batch ih =>
      rw [accumulate_concat, mergeAccounting, ih, (aggregate_phaseUsage batch).1]
      simp only [List.map_append, List.map_singleton, total_concat]

theorem firstSeen_firstSeen_append {α : Type} [DecidableEq α] (xs ys : List α) :
    firstSeen (firstSeen xs ++ ys) = firstSeen (xs ++ ys) := by
  rw [firstSeen_append, firstSeen_append, firstSeen_of_nodup (nodup_firstSeen xs)]

theorem accumulate_retrospect : (accumulate batches).sessionRetrospect =
    firstSeen (batches.flatMap (gather (entryOf Turn.retrospective) [])) := by
  induction batches using List.reverseRecOn with
  | nil => rfl
  | append_singleton batches batch ih =>
      rw [accumulate_concat, mergeAccounting, ih, aggregate_retrospect, List.flatMap_append,
        List.flatMap_singleton, firstSeen_firstSeen_append]

theorem accumulate_diagnostics : (accumulate batches).sessionDiagnostics =
    firstSeen (batches.flatMap (gather (entryOf Turn.diagnostics) [])) := by
  induction batches using List.reverseRecOn with
  | nil => rfl
  | append_singleton batches batch ih =>
      rw [accumulate_concat, mergeAccounting, ih, aggregate_diagnostics, List.flatMap_append,
        List.flatMap_singleton, firstSeen_firstSeen_append]

end

/-! Entries. -/

/-- The entry names a session of the turn, or none where the turn has none. -/
def NamesOwn (entry : Entry ε) (t : Turn ω ε) : Prop :=
  match entry.sessionId with
  | none => locators t = []
  | some id => id ∈ locators t

section

variable (evidence : Turn ω ε → Option ε)

/-- In its batch and in the whole, the session that was first seen last when a turn with evidence
and sessions ends is one of its own. -/
def OwnNewest (batches : List (List (Turn ω ε))) : Prop :=
  Each (fun earlier batch => Each (fun before t => (evidence t).isSome → locators t ≠ [] →
    ∃ id ∈ locators t, newest (before ++ [t]) = some id ∧
      newest (earlier.flatten ++ before ++ [t]) = some id) [] batch) [] batches

/-- No two turns give the same evidence in the same phase, with the same session first seen last. -/
def Apart (turns : List (Turn ω ε)) : Prop :=
  Each (fun before t => (evidence t).isSome → Each (fun front u => ¬ (u.phaseName = t.phaseName ∧
    session front u = session before t ∧ evidence u = evidence t)) [] before) [] turns

theorem session_isSome {before : List (Turn ω ε)} {t : Turn ω ε} (used : locators t ≠ []) :
    ∃ id, session before t = some id ∧ newest (before ++ [t]) = some id := by
  obtain ⟨id, rest, own⟩ := List.exists_cons_of_ne_nil used
  have member : id ∈ firstSeen ((before ++ [t]).flatMap locators) := by
    rw [mem_firstSeen, List.flatMap_append, List.flatMap_singleton, own]
    simp
  have some_ : (newest (before ++ [t])).isSome := by
    rw [newest, List.getLast?_isSome]
    exact List.ne_nil_of_mem member
  obtain ⟨last, found⟩ := Option.isSome_iff_exists.mp some_
  refine ⟨last, ?_, found⟩
  rw [session, if_neg (by simpa using used), found]

theorem nodup_entries_iff (turns : List (Turn ω ε)) :
    (gather (entryOf evidence) [] turns).Nodup ↔ Apart evidence turns := by
  rw [nodup_gather]
  refine each_congr (fun before t => ?_) [] turns
  cases own : evidence t with
  | none => simp [entryOf, own]
  | some value =>
      have single : entryOf evidence before t = [⟨t.phaseName, session before t, value⟩] := by
        rw [entryOf, own]
        rfl
      rw [single]
      simp only [List.nodup_singleton, true_and, List.forall_mem_singleton, not_mem_gather,
        Option.isSome_some, forall_const]
      refine each_congr (fun front u => ?_) [] before
      cases other : evidence u with
      | none => simp [entryOf, other]
      | some w =>
          simp only [entryOf, other, Option.map_some, Option.toList_some, List.mem_singleton,
            Entry.mk.injEq, Option.some.injEq]
          constructor
          · exact fun apart same => apart ⟨same.1.symm, same.2.1.symm, same.2.2.symm⟩
          · exact fun apart same => apart ⟨same.1.symm, same.2.1.symm, same.2.2.symm⟩

theorem length_entryOf (before : List (Turn ω ε)) (t : Turn ω ε) :
    (entryOf evidence before t).length = (evidence t).toList.length := by
  rw [entryOf]
  cases evidence t <;> rfl

theorem entries_flatten (batches : List (List (Turn ω ε))) :
    gather (entryOf evidence) [] batches.flatten =
      gather (fun earlier batch => gather (fun before t =>
        entryOf evidence (earlier.flatten ++ before) t) [] batch) [] batches := by
  rw [gather_flatten]
  congr 1
  funext earlier batch
  have shift := gather_shift (f := entryOf evidence) earlier.flatten [] batch
  rwa [List.append_nil] at shift

theorem length_shifted (earlier before : List (Turn ω ε)) (t : Turn ω ε) :
    (entryOf evidence before t).length = (entryOf evidence (earlier ++ before) t).length := by
  rw [length_entryOf, length_entryOf]

/-- The batches give the entries of the whole where each turn's session is the same in both. -/
theorem batched_entries_iff (batches : List (List (Turn ω ε))) :
    batches.flatMap (gather (entryOf evidence) []) =
        gather (entryOf evidence) [] batches.flatten ↔
      Each (fun earlier batch => Each (fun before t =>
        entryOf evidence before t = entryOf evidence (earlier.flatten ++ before) t) [] batch)
        [] batches := by
  rw [← gather_const _ [], entries_flatten, gather_eq_iff]
  · exact each_congr (fun earlier batch =>
      gather_eq_iff (length_shifted evidence earlier.flatten) [] batch) [] batches
  · exact fun earlier batch => length_gather (length_shifted evidence earlier.flatten) [] batch

theorem length_batched_entries (batches : List (List (Turn ω ε))) :
    (batches.flatMap (gather (entryOf evidence) [])).length =
      (gather (entryOf evidence) [] batches.flatten).length := by
  rw [← gather_const _ [], entries_flatten]
  exact length_gather (fun earlier batch =>
    length_gather (length_shifted evidence earlier.flatten) [] batch) [] batches

theorem namesOwn_iff {before : List (Turn ω ε)} {t : Turn ω ε} (phase : String) (value : ε) :
    NamesOwn ⟨phase, session before t, value⟩ t ↔
      (locators t ≠ [] → ∃ id ∈ locators t, newest (before ++ [t]) = some id) := by
  by_cases used : locators t = []
  · simp [NamesOwn, session, used]
  · obtain ⟨id, named, found⟩ : ∃ id, session before t = some id ∧
        newest (before ++ [t]) = some id := session_isSome used
    simp [NamesOwn, named, found, used]

/-- Each entry names a session of its turn where the session that was first seen last is one. -/
theorem forall₂_namesOwn_iff (before turns : List (Turn ω ε)) :
    List.Forall₂ NamesOwn (gather (entryOf evidence) before turns)
        (turns.filter fun t => (evidence t).isSome) ↔
      Each (fun before t => (evidence t).isSome → locators t ≠ [] →
        ∃ id ∈ locators t, newest (before ++ [t]) = some id) before turns := by
  induction turns generalizing before with
  | nil => simp [gather, Each]
  | cons t turns ih =>
      rw [gather, Each, ← ih]
      cases own : evidence t with
      | none => simp [entryOf, own]
      | some value =>
          have single : entryOf evidence before t = [⟨t.phaseName, session before t, value⟩] := by
            rw [entryOf, own]
            rfl
          rw [single, List.filter_cons_of_pos (by rw [own]; rfl), List.singleton_append,
            List.forall₂_cons, namesOwn_iff]
          simp

/-- A turn names the same session in its batch and in the whole, and one of its own. -/
theorem entry_iff (earlier before : List (Turn ω ε)) (t : Turn ω ε) :
    (entryOf evidence before t = entryOf evidence (earlier ++ before) t ∧
        ((evidence t).isSome → locators t ≠ [] →
          ∃ id ∈ locators t, newest (earlier ++ before ++ [t]) = some id)) ↔
      ((evidence t).isSome → locators t ≠ [] → ∃ id ∈ locators t,
        newest (before ++ [t]) = some id ∧ newest (earlier ++ before ++ [t]) = some id) := by
  cases own : evidence t with
  | none => simp [entryOf, own]
  | some value =>
      by_cases used : locators t = []
      · simp [entryOf, own, session, used]
      · obtain ⟨here, named, found⟩ : ∃ id, session before t = some id ∧
            newest (before ++ [t]) = some id := session_isSome used
        obtain ⟨there, named', found'⟩ : ∃ id, session (earlier ++ before) t = some id ∧
            newest (earlier ++ before ++ [t]) = some id := session_isSome used
        simp only [entryOf, own, named, named', found, found', Option.map_some, Option.toList_some,
          List.cons.injEq, Entry.mk.injEq, and_true, true_and, Option.some.injEq,
          Option.isSome_some, ne_eq, used, not_false_eq_true, forall_const]
        constructor
        · rintro ⟨rfl, id, member, rfl⟩
          exact ⟨_, member, rfl, rfl⟩
        · rintro ⟨id, member, rfl, rfl⟩
          exact ⟨rfl, _, member, rfl⟩

/-- The entries of the batches are those of the whole, each with a session of its turn. -/
theorem entries_iff [DecidableEq ε] (batches : List (List (Turn ω ε))) :
    (firstSeen (batches.flatMap (gather (entryOf evidence) [])) =
        gather (entryOf evidence) [] batches.flatten ∧
      List.Forall₂ NamesOwn (gather (entryOf evidence) [] batches.flatten)
        (batches.flatten.filter fun t => (evidence t).isSome)) ↔
      OwnNewest evidence batches ∧ Apart evidence batches.flatten := by
  rw [firstSeen_eq_iff (length_batched_entries evidence batches), batched_entries_iff,
    nodup_entries_iff, forall₂_namesOwn_iff, each_flatten, and_right_comm, ← each_and, OwnNewest]
  refine and_congr_left fun _ => each_congr (fun earlier batch => ?_) [] batches
  have shift : Each (fun before t => (evidence t).isSome → locators t ≠ [] →
      ∃ id ∈ locators t, newest (before ++ [t]) = some id) (earlier.flatten ++ []) batch ↔ _ :=
    each_shift earlier.flatten [] batch
  rw [List.append_nil] at shift
  rw [List.nil_append, shift, ← each_and]
  exact each_congr (entry_iff evidence earlier.flatten) [] batch

end

/-! The whole. -/

theorem usage_iff (batches : List (List (Turn ω ε))) {fields : Turn ω ε → Fields ω}
    (proper : ∀ t, Proper (.map (fields t))) :
    Same (total ((batches.map fun batch => batch.map fields).map total))
        (total (batches.flatten.map fields)) ↔
      ∀ key path, Settled none ((batches.map fun batch => batch.map fields).map
        (partAt (key :: path))) := by
  rw [List.map_flatten]
  refine same_total_iff fun us member u own => ?_
  obtain ⟨batch, _, rfl⟩ := List.mem_map.mp member
  obtain ⟨t, _, rfl⟩ := List.mem_map.mp own
  exact proper t

section

variable [DecidableEq ε]

/-- The accounting of the batches is that of the whole, and each entry names a session of its
turn. -/
structure Right (batches : List (List (Turn ω ε))) : Prop where
  sessionIds : (accumulate batches).sessionIds =
    (aggregateTurnAccounting batches.flatten).sessionIds
  sessionRefs : (accumulate batches).sessionRefs =
    (aggregateTurnAccounting batches.flatten).sessionRefs
  tokenUsage : Same (accumulate batches).sessionTokenUsage
    (aggregateTurnAccounting batches.flatten).sessionTokenUsage
  phaseUsage : Same (accumulate batches).phaseTokenUsage
    (aggregateTurnAccounting batches.flatten).phaseTokenUsage
  retrospect : (accumulate batches).sessionRetrospect =
    (aggregateTurnAccounting batches.flatten).sessionRetrospect
  diagnostics : (accumulate batches).sessionDiagnostics =
    (aggregateTurnAccounting batches.flatten).sessionDiagnostics
  patchCount : (accumulate batches).sessionPatchCount =
    (aggregateTurnAccounting batches.flatten).sessionPatchCount
  retrospectOwn : List.Forall₂ NamesOwn
    (aggregateTurnAccounting batches.flatten).sessionRetrospect
    (batches.flatten.filter fun t => t.retrospective.isSome)
  diagnosticsOwn : List.Forall₂ NamesOwn
    (aggregateTurnAccounting batches.flatten).sessionDiagnostics
    (batches.flatten.filter fun t => t.diagnostics.isSome)

/-- What the turns and their cut must be like. -/
structure Fits (batches : List (List (Turn ω ε))) : Prop where
  usage : ∀ key path, Settled none ((batches.map fun batch => batch.map Turn.usage).map
    (partAt (key :: path)))
  phases : ∀ key path, Settled none ((batches.map fun batch => batch.map phaseFields).map
    (partAt (key :: path)))
  retrospectNewest : OwnNewest Turn.retrospective batches
  retrospectApart : Apart Turn.retrospective batches.flatten
  diagnosticsNewest : OwnNewest Turn.diagnostics batches
  diagnosticsApart : Apart Turn.diagnostics batches.flatten

/-- The accounting is right exactly where the turns and their cut fit. -/
theorem accounting_right_iff (batches : List (List (Turn ω ε))) : Right batches ↔ Fits batches := by
  have usage := usage_iff batches Turn.distinct
  have phases := usage_iff batches proper_phaseFields
  have retrospect := entries_iff Turn.retrospective batches
  have diagnostics := entries_iff Turn.diagnostics batches
  rw [← accumulate_usage, ← aggregate_usage] at usage
  rw [← accumulate_phaseUsage, ← (aggregate_phaseUsage batches.flatten).1] at phases
  rw [← accumulate_retrospect, ← aggregate_retrospect] at retrospect
  rw [← accumulate_diagnostics, ← aggregate_diagnostics] at diagnostics
  constructor
  · intro right
    obtain ⟨newest, apart⟩ := retrospect.mp ⟨right.retrospect, right.retrospectOwn⟩
    obtain ⟨newest', apart'⟩ := diagnostics.mp ⟨right.diagnostics, right.diagnosticsOwn⟩
    exact ⟨usage.mp right.tokenUsage, phases.mp right.phaseUsage, newest, apart, newest', apart'⟩
  · intro fits
    obtain ⟨same, own⟩ := retrospect.mpr ⟨fits.retrospectNewest, fits.retrospectApart⟩
    obtain ⟨same', own'⟩ := diagnostics.mpr ⟨fits.diagnosticsNewest, fits.diagnosticsApart⟩
    exact ⟨accumulate_sessionIds batches, accumulate_sessionRefs batches,
      usage.mpr fits.usage, phases.mpr fits.phases, same, same', accumulate_patchCount batches,
      own, own'⟩

end

/-! Turns that are alike, and a turn that returns to its session. -/

def checkedIn (sessionId evidence : String) : Turn Unit String where
  phase := "fix_tests"
  sessionId
  distinct := .nil
  diagnostics := some evidence

theorem alikeTurns_dropped :
    (accumulate [[checkedIn "s1" "accepted", checkedIn "s1" "accepted"]]).sessionDiagnostics =
        [⟨"fix_tests", some "s1", "accepted"⟩] ∧
      (aggregateTurnAccounting
        [checkedIn "s1" "accepted", checkedIn "s1" "accepted"]).sessionDiagnostics =
        [⟨"fix_tests", some "s1", "accepted"⟩, ⟨"fix_tests", some "s1", "accepted"⟩] ∧
      ¬ Right [[checkedIn "s1" "accepted", checkedIn "s1" "accepted"]] := by
  refine ⟨by decide, by decide, fun right => ?_⟩
  have same := right.diagnostics
  revert same
  decide

end Uta.Generation.TurnAccounting
