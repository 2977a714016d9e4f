/- The files of the survivor groups: each group finds its own text at its path exactly if the slugs
tell the symbols apart. -/
import Uta.Enforce.MutationRepair

namespace Uta.Enforce.MutationRepair
open Uta.Lib Uta.Lib.PyText

/-- What becomes of the groups' files: a file of its own for each symbol, with the text of exactly
its groups, and plans that name the files of exactly the groups that they select. -/
structure Kept (py : Rendering) (contextJson : MutationRepairContext → List Char)
    (order : List MutationRepairGroup) (directory : List Char) (context : MutationRepairContext)
    (splitThreshold : ℤ) (files : Files) : Prop where
  alone : ∀ g ∈ context.groups,
    groupPath directory g.symbol ≠
        (writeInOrder py contextJson order directory context splitThreshold files).2.artifactPath ∧
      ∀ h ∈ context.groups, groupPath directory h.symbol = groupPath directory g.symbol →
        h.symbol = g.symbol
  own : ∀ g ∈ context.groups,
    (writeInOrder py contextJson order directory context splitThreshold files).1
        (groupPath directory g.symbol) =
      some (describe py context (context.groups.filter fun h => h.symbol = g.symbol))
  planned : ∀ state focused,
    let plan := planMutationRepair
      (writeInOrder py contextJson order directory context splitThreshold files).2 state focused
    plan.groupArtifactPaths = plan.selectedGroups.map (fun g => groupPath directory g.symbol) ∧
      ∀ g ∈ context.groups, groupPath directory g.symbol ∈ plan.groupArtifactPaths ↔
        g.symbol ∈ plan.selectedGroups.map (·.symbol)

/-- The slugs tell the symbols of the groups apart, and from the file of the whole context; an
empty symbol, which selects nothing, stands alone. -/
structure Distinguished (groups : List MutationRepairGroup) : Prop where
  apart : ∀ g ∈ groups, ∀ h ∈ groups, slug g.symbol = slug h.symbol → g.symbol = h.symbol
  free : ∀ g ∈ groups, slug g.symbol ≠ "context".toList
  named : ∀ g ∈ groups, g.symbol = "" → ∀ h ∈ groups, h.symbol = ""

/-! Paths. -/

theorem under_inj {directory a b : List Char} : under directory a = under directory b ↔ a = b := by
  unfold under
  split_ifs <;> simp

theorem repairFile_inj {directory a b : List Char} :
    repairFile directory a = repairFile directory b ↔ a = b := by
  unfold repairFile
  rw [under_inj, List.append_cancel_left_eq, List.append_cancel_right_eq]

theorem repairFile_ne_nil (directory stem : List Char) : repairFile directory stem ≠ [] := by
  unfold repairFile under
  split_ifs
  · simp
  · simp
  · simp

/-! Texts. -/

section Texts
variable (py : Rendering) (context : MutationRepairContext)

theorem formatMutationRepairContext_named {symbol : String} (named : symbol ≠ "") :
    formatMutationRepairContext py context symbol =
      describe py context (context.groups.filter fun h => h.symbol = symbol) := by
  unfold formatMutationRepairContext
  simp only [named, false_or]

theorem formatMutationRepairContext_unnamed :
    formatMutationRepairContext py context "" = describe py context context.groups := by
  unfold formatMutationRepairContext
  simp

theorem ink_section (g : MutationRepairGroup) : (section_ py g).flatMap ink ≠ [] := by
  have heading : ink ("### ".toList ++ quoted g.symbol.toList) ≠ [] := by
    rw [ink_append]
    exact List.append_ne_nil_of_left_ne_nil (by decide) _
  intro none_
  rw [List.flatMap_eq_nil_iff] at none_
  refine heading (none_ _ ?_)
  exact List.mem_append_left _ (List.mem_append_left _ (List.mem_append_left _
    (List.mem_append_left _ (List.mem_cons_self ..))))

theorem ink_describe (groups : List MutationRepairGroup) :
    ink (describe py context groups) =
      (head context).flatMap ink ++ groups.flatMap fun g => (section_ py g).flatMap ink := by
  have end_ : ink ['\n'] = [] := by decide
  rw [describe, ink_append, ink_rstrip, ink_joinLines, end_, List.append_nil, List.flatMap_append,
    List.flatMap_assoc]

/-- Leaving out a group shortens the text. -/
theorem describe_filter_ne {groups : List MutationRepairGroup} {p : MutationRepairGroup → Bool}
    {g : MutationRepairGroup} (member : g ∈ groups) (out : p g = false) :
    describe py context (groups.filter p) ≠ describe py context groups := by
  intro same
  have inks := congrArg ink same
  rw [ink_describe, ink_describe, List.append_cancel_left_eq] at inks
  have lengths := congrArg List.length inks
  have fewer : ((groups.filter p).flatMap fun g => (section_ py g).flatMap ink).length <
      (groups.flatMap fun g => (section_ py g).flatMap ink).length := by
    obtain ⟨before, after, rfl⟩ := List.append_of_mem member
    have shorter : ∀ l : List MutationRepairGroup,
        ((l.filter p).flatMap fun g => (section_ py g).flatMap ink).length ≤
          (l.flatMap fun g => (section_ py g).flatMap ink).length := fun l =>
      (List.Sublist.flatMap List.filter_sublist _).length_le
    have some_ := List.length_pos_iff.mpr (ink_section py g)
    have left := shorter before
    have right := shorter after
    rw [List.filter_append, List.filter_cons, out, if_neg Bool.false_ne_true]
    rw [List.flatMap_append, List.flatMap_append, List.flatMap_cons, List.length_append,
      List.length_append, List.length_append]
    omega
  omega

end Texts

/-! The files. -/

section Files
variable {py : Rendering} {contextJson : MutationRepairContext → List Char}
  {order : List MutationRepairGroup} {directory : List Char} {context : MutationRepairContext}
  {splitThreshold : ℤ} {files : Files}

theorem get?_paths (path : String → List Char) {groups : List MutationRepairGroup}
    {g : MutationRepairGroup} (member : g ∈ groups) :
    Dict.get? (groups.map fun h => (h.symbol, path h.symbol)) g.symbol = some (path g.symbol) := by
  induction groups with
  | nil => cases member
  | cons h groups ih =>
      rw [List.map_cons, Dict.get?_cons]
      by_cases same : h.symbol = g.symbol
      · rw [if_pos same, same]
        cases later : Dict.get? (groups.map fun h => (h.symbol, path h.symbol)) g.symbol with
        | none => rfl
        | some found =>
            have entry := Dict.mem_of_get? later
            obtain ⟨other, -, pair⟩ := List.mem_map.mp entry
            obtain ⟨symbol, rfl⟩ := Prod.mk.inj pair
            rw [Option.some_or, symbol]
      · rcases List.mem_cons.mp member with rfl | later
        · exact absurd rfl same
        · rw [ih later, Option.some_or]

/-- A plan selects groups of its context. -/
theorem mem_of_selected (context : MutationRepairContext) (state : MutationRepairRoundState)
    (focused : ℤ) {g : MutationRepairGroup}
    (selected : g ∈ (planMutationRepair context state focused).selectedGroups) :
    g ∈ context.groups := by
  have ordered : g ∈ orderedMutationGroups context.groups := by
    unfold planMutationRepair at selected
    dsimp only at selected
    split_ifs at selected
    · exact selected
    · exact List.mem_of_mem_take selected
  exact (List.mergeSort_perm _ _).mem_iff.mp ordered

/-- A plan of a written context names the file of each group that it selects. -/
theorem plan_paths (py : Rendering) (contextJson : MutationRepairContext → List Char)
    (directory : List Char) (files : Files) (split : splitThreshold < context.survivorCount)
    (perm : order.Perm context.groups) (state : MutationRepairRoundState) (focused : ℤ) :
    let plan := planMutationRepair
      (writeInOrder py contextJson order directory context splitThreshold files).2 state focused
    plan.groupArtifactPaths = plan.selectedGroups.map fun g => groupPath directory g.symbol := by
  intro plan
  have written : plan.groupArtifactPaths = (plan.selectedGroups.map fun g =>
      (Dict.get? (order.map fun h => (h.symbol, groupPath directory h.symbol)) g.symbol).getD
        []).filter (· ≠ []) := by
    simp only [plan, writeInOrder, shouldSplitMutationRepair, decide_eq_true split, if_true,
      planMutationRepair]
  have found : (plan.selectedGroups.map fun g =>
      (Dict.get? (order.map fun h => (h.symbol, groupPath directory h.symbol)) g.symbol).getD
        []) = plan.selectedGroups.map fun g => groupPath directory g.symbol := by
    refine List.map_congr_left fun g selected => ?_
    have member : g ∈ order := perm.mem_iff.mpr (mem_of_selected _ state focused selected)
    rw [get?_paths (groupPath directory) member, Option.getD_some]
  rw [written, found, List.filter_eq_self]
  intro path member
  obtain ⟨g, -, rfl⟩ := List.mem_map.mp member
  exact decide_eq_true (repairFile_ne_nil _ _)

theorem written_files (py : Rendering) (contextJson : MutationRepairContext → List Char)
    (order : List MutationRepairGroup) (directory : List Char) (files : Files)
    (split : splitThreshold < context.survivorCount) :
    ∃ start, (writeInOrder py contextJson order directory context splitThreshold files).1 =
      putAll (fun g : MutationRepairGroup => groupPath directory g.symbol)
        (fun g => formatMutationRepairContext py context g.symbol) start order := by
  simp only [writeInOrder, shouldSplitMutationRepair, decide_eq_true split, if_true]
  exact ⟨_, rfl⟩

theorem Kept.distinguished (split : splitThreshold < context.survivorCount)
    (perm : order.Perm context.groups)
    (kept : Kept py contextJson order directory context splitThreshold files) :
    Distinguished context.groups where
  apart g first h second same :=
    (kept.alone h second).2 g first (repairFile_inj.mpr same)
  free g member same := (kept.alone g member).1 (repairFile_inj.mpr same)
  named g member unnamed h other := by
    by_contra named
    obtain ⟨start, written⟩ := written_files py contextJson order directory files split
    have own := kept.own g member
    rw [written] at own
    rcases Placing.putAll_cases (fun g : MutationRepairGroup => groupPath directory g.symbol)
      (fun g => formatMutationRepairContext py context g.symbol) start order
      (groupPath directory g.symbol) with ⟨b, late, meet, found⟩ | elsewhere
    · rw [own, (kept.alone g member).2 b (perm.mem_iff.mp late) meet, unnamed,
        formatMutationRepairContext_unnamed] at found
      exact describe_filter_ne py context other (decide_eq_false named) (Option.some.inj found)
    · exact elsewhere g (perm.mem_iff.mpr member) rfl

theorem Distinguished.kept (split : splitThreshold < context.survivorCount)
    (perm : order.Perm context.groups) (distinguished : Distinguished context.groups) :
    Kept py contextJson order directory context splitThreshold files where
  alone g member := by
    refine ⟨fun same => distinguished.free g member (repairFile_inj.mp same), ?_⟩
    intro h other meet
    exact distinguished.apart h other g member (repairFile_inj.mp meet)
  own g member := by
    obtain ⟨start, written⟩ := written_files py contextJson order directory files split
    have agree : ∀ a ∈ order, ∀ b ∈ order,
        groupPath directory a.symbol = groupPath directory b.symbol →
          formatMutationRepairContext py context a.symbol =
            formatMutationRepairContext py context b.symbol := by
      intro a first b second meet
      rw [distinguished.apart a (perm.mem_iff.mp first) b (perm.mem_iff.mp second)
        (repairFile_inj.mp meet)]
    have found := (Placing.putAll_own_iff _ _ start order).mpr agree g (perm.mem_iff.mpr member)
    rw [written, found]
    by_cases named : g.symbol = ""
    · have all : context.groups.filter (fun h => h.symbol = g.symbol) = context.groups :=
        List.filter_eq_self.mpr fun h other =>
          decide_eq_true ((distinguished.named g member named h other).trans named.symm)
      rw [all, named, formatMutationRepairContext_unnamed]
    · rw [formatMutationRepairContext_named py context named]
  planned state focused := by
    have paths := plan_paths py contextJson directory files split perm state focused
    refine ⟨paths, fun g member => ?_⟩
    rw [paths]
    constructor
    · intro given
      obtain ⟨s, selected, meet⟩ := List.mem_map.mp given
      have inside := mem_of_selected _ state focused selected
      exact List.mem_map.mpr ⟨s, selected,
        distinguished.apart s inside g member (repairFile_inj.mp meet)⟩
    · intro given
      obtain ⟨s, selected, same⟩ := List.mem_map.mp given
      exact List.mem_map.mpr ⟨s, selected, by rw [same]⟩

/-- In whatever order they are written, the groups keep their files exactly if their symbols are
distinguished. -/
theorem repairFiles_kept_iff (py : Rendering)
    (contextJson : MutationRepairContext → List Char) (order : List MutationRepairGroup)
    (directory : List Char) (context : MutationRepairContext) (splitThreshold : ℤ)
    (files : Files) (split : splitThreshold < context.survivorCount)
    (perm : order.Perm context.groups) :
    Kept py contextJson order directory context splitThreshold files ↔
      Distinguished context.groups :=
  ⟨Kept.distinguished split perm, Distinguished.kept split perm⟩

end Files

/-! Symbols that differ in case. -/

/-- A rendering that is not asked for anything. -/
def noRendering : Rendering := ⟨⟨fun _ => "", fun _ => none, fun _ => none, fun _ => none⟩, fun _ => []⟩

/-- A context with thirty survivors in each of two symbols. -/
def pairContext (first second : String) : MutationRepairContext where
  targetId := "java:pkg".toList
  sourcePath := "A.java".toList
  testPaths := []
  reproduceCommand := []
  survivorCount := 60
  groups := [{ symbol := first, count := 30 }, { symbol := second, count := 30 }]

theorem pairContext_kept :
    50 < (pairContext "A.get" "A.put").survivorCount ∧
      Kept noRendering (fun _ => []) (pairContext "A.get" "A.put").groups ".uta_cache".toList
        (pairContext "A.get" "A.put") 50 (fun _ => none) :=
  ⟨by decide, (repairFiles_kept_iff noRendering (fun _ => []) _ ".uta_cache".toList
    (pairContext "A.get" "A.put") 50 (fun _ => none) (by decide) (List.Perm.refl _)).mpr
    ⟨by decide, by decide, by decide⟩⟩

/-- The file of `A.get` ends with the survivors of `A.Get`. -/
theorem caseTwins_share :
    50 < (pairContext "A.get" "A.Get").survivorCount ∧
      (writeMutationRepairContext noRendering (fun _ => []) ".uta_cache".toList
          (pairContext "A.get" "A.Get") 50 (fun _ => none)).1
        (groupPath ".uta_cache".toList "A.get") =
          some (describe noRendering (pairContext "A.get" "A.Get")
            [{ symbol := "A.Get", count := 30 }]) ∧
      ¬ Kept noRendering (fun _ => []) (pairContext "A.get" "A.Get").groups ".uta_cache".toList
        (pairContext "A.get" "A.Get") 50 (fun _ => none) := by
  have twins : groupPath ".uta_cache".toList "A.get" = groupPath ".uta_cache".toList "A.Get" :=
    repairFile_inj.mpr (by decide)
  refine ⟨by decide, ?_, fun kept => ?_⟩
  · have last : formatMutationRepairContext noRendering (pairContext "A.get" "A.Get") "A.Get" =
        describe noRendering (pairContext "A.get" "A.Get") [{ symbol := "A.Get", count := 30 }] :=
      formatMutationRepairContext_named noRendering _ (by decide)
    have written : ∃ held : Files, (writeMutationRepairContext noRendering (fun _ => [])
        ".uta_cache".toList (pairContext "A.get" "A.Get") 50 (fun _ => none)).1 =
          Function.update held (groupPath ".uta_cache".toList "A.Get")
            (some (formatMutationRepairContext noRendering (pairContext "A.get" "A.Get") "A.Get")) :=
      ⟨_, rfl⟩
    obtain ⟨held, written⟩ := written
    rw [twins, ← last, written, Function.update_self]
  · have distinguished := kept.distinguished (by decide) (List.Perm.refl _)
    have same := distinguished.apart _ (List.mem_cons_self ..) _
      (List.mem_cons_of_mem _ (List.mem_cons_self ..)) (by decide)
    exact absurd same (by decide)

end Uta.Enforce.MutationRepair
