/- Mappings whose numbers are added up, leaf by leaf, and how much of such a sum depends on how its
parts are put together. -/
import Mathlib.Algebra.Order.Ring.Rat
import Mathlib.Data.List.Nodup
import Mathlib.Data.List.Induction
import Mathlib.Tactic.Common

namespace Uta.Lib.NestedSums

variable {ω : Type}

/-- A number, a value of another kind, or a mapping. -/
inductive Value (ω : Type) where
  | num (n : ℚ)
  | other (o : ω)
  | map (fields : List (String × Value ω))

abbrev Fields (ω : Type) := List (String × Value ω)

/-- `fields.get(key)`. -/
def get? (fields : Fields ω) (key : String) : Option (Value ω) :=
  match fields with
  | [] => none
  | (k, v) :: rest => if k = key then some v else get? rest key

/-- `fields[key] = value`. -/
def put (fields : Fields ω) (key : String) (value : Value ω) : Fields ω :=
  match fields with
  | [] => [(key, value)]
  | (k, v) :: rest => if k = key then (k, value) :: rest else (k, v) :: put rest key value

section
-- The equations are made here, once, for the lemmas that follow.
attribute [local simp] get? put
end

/-! The sum of two mappings. Two numbers are added, two mappings are summed, and otherwise the later
value stays. -/

mutual

def mergeValue (prior : Option (Value ω)) : Value ω → Value ω
  | .num n =>
    match prior with
    | some (.num p) => .num (p + n)
    | _ => .num n
  | .other o => .other o
  | .map fields =>
    match prior with
    | some (.map p) => .map (merge p fields)
    | _ => .map fields

def merge (merged : Fields ω) : List (String × Value ω) → Fields ω
  | [] => merged
  | entry :: rest => merge (mergeEntry merged entry) rest

def mergeEntry (merged : Fields ω) : String × Value ω → Fields ω
  | (key, value) => put merged key (mergeValue (get? merged key) value)

end

section
-- The equations are made here, once, for the lemmas that follow.
attribute [local simp] mergeValue merge mergeEntry
end

/-- The sum of a list of mappings. -/
def total (us : List (Fields ω)) : Fields ω := us.foldl merge []

/-- No mapping names a key twice. -/
inductive Proper : Value ω → Prop
  | num (n : ℚ) : Proper (.num n)
  | other (o : ω) : Proper (.other o)
  | map (fields : Fields ω) (distinct : (fields.map Prod.fst).Nodup)
      (each : ∀ e ∈ fields, Proper e.2) : Proper (.map fields)

/-! Single keys. -/

theorem get?_put (fields : Fields ω) (key : String) (value : Value ω) (k : String) :
    get? (put fields key value) k = if key = k then some value else get? fields k := by
  induction fields with
  | nil => rfl
  | cons e fields ih =>
      obtain ⟨own, v⟩ := e
      rw [put]
      split
      · next same =>
        subst same
        rw [get?, get?]
        split <;> rfl
      · next apart =>
        rw [get?, get?, ih]
        split
        · next same =>
          subst same
          rw [if_neg (Ne.symm apart)]
        · rfl

theorem mem_of_get? {fields : Fields ω} {key : String} {v : Value ω}
    (found : get? fields key = some v) : (key, v) ∈ fields := by
  induction fields with
  | nil => cases found
  | cons e fields ih =>
      obtain ⟨k, w⟩ := e
      rw [get?] at found
      split at found
      · next same =>
        cases found
        rw [same]
        exact List.mem_cons_self
      · exact List.mem_cons_of_mem _ (ih found)

theorem get?_of_not_mem {fields : Fields ω} {key : String} (absent : key ∉ fields.map Prod.fst) :
    get? fields key = none := by
  cases found : get? fields key with
  | none => rfl
  | some v => exact absurd (List.mem_map.mpr ⟨_, mem_of_get? found, rfl⟩) absent

theorem map_put (fields : Fields ω) (key : String) (value : Value ω) :
    (put fields key value).map Prod.fst =
      if key ∈ fields.map Prod.fst then fields.map Prod.fst else fields.map Prod.fst ++ [key] := by
  induction fields with
  | nil => rfl
  | cons e fields ih =>
      obtain ⟨k, v⟩ := e
      rw [put]
      split
      · next same => simp [same]
      · next apart =>
        rw [List.map_cons, ih]
        by_cases member : key ∈ fields.map Prod.fst
        · simp [member]
        · simp [member, Ne.symm apart]

theorem mem_put {fields : Fields ω} {key : String} {value : Value ω} {e : String × Value ω}
    (member : e ∈ put fields key value) : e ∈ fields ∨ e = (key, value) := by
  induction fields with
  | nil => exact .inr (List.mem_singleton.mp member)
  | cons own fields ih =>
      obtain ⟨k, v⟩ := own
      rw [put] at member
      split at member
      · next same =>
        rcases List.mem_cons.mp member with rfl | later
        · exact .inr (by rw [same])
        · exact .inl (List.mem_cons_of_mem _ later)
      · rcases List.mem_cons.mp member with rfl | later
        · exact .inl List.mem_cons_self
        · exact (ih later).imp_left (List.mem_cons_of_mem _)

theorem Proper.put {fields : Fields ω} (proper : Proper (.map fields)) (key : String)
    {value : Value ω} (own : Proper value) : Proper (.map (put fields key value)) := by
  obtain ⟨distinct, each⟩ : (fields.map Prod.fst).Nodup ∧ ∀ e ∈ fields, Proper e.2 := by
    cases proper with
    | map _ distinct each => exact ⟨distinct, each⟩
  refine .map _ ?_ fun e member => ?_
  · rw [map_put]
    split
    · exact distinct
    · next absent =>
      exact List.Nodup.append distinct (List.nodup_singleton key) (by simpa using absent)
  · rcases mem_put member with old | rfl
    · exact each e old
    · exact own

theorem Proper.get? {fields : Fields ω} (proper : Proper (.map fields)) {key : String}
    {v : Value ω} (found : get? fields key = some v) : Proper v := by
  cases proper with
  | map _ _ each => exact each _ (mem_of_get? found)

theorem Proper.nil : Proper (.map ([] : Fields ω)) := .map [] List.nodup_nil (by simp)

theorem Proper.distinct {fields : Fields ω} (proper : Proper (.map fields)) :
    (fields.map Prod.fst).Nodup := by
  cases proper with
  | map _ distinct _ => exact distinct

theorem Proper.tail {e : String × Value ω} {fields : Fields ω}
    (proper : Proper (.map (e :: fields))) : Proper e.2 ∧ Proper (.map fields) := by
  cases proper with
  | map _ distinct each =>
      rw [List.forall_mem_cons] at each
      exact ⟨each.1, .map _ (List.nodup_cons.mp distinct).2 each.2⟩

/-! Sums. -/

theorem merge_cons (merged : Fields ω) (key : String) (value : Value ω) (rest : Fields ω) :
    merge merged ((key, value) :: rest) =
      merge (put merged key (mergeValue (get? merged key) value)) rest := by
  rw [merge, mergeEntry]

/-- What a sum holds at a key. -/
theorem get?_merge (merged : Fields ω) {fields : Fields ω} (proper : Proper (.map fields))
    (key : String) :
    get? (merge merged fields) key =
      match get? fields key with
      | none => get? merged key
      | some v => some (mergeValue (get? merged key) v) := by
  induction fields generalizing merged with
  | nil => rw [merge, get?]
  | cons e fields ih =>
      obtain ⟨own, v⟩ := e
      have absent : own ∉ fields.map Prod.fst := (List.nodup_cons.mp proper.distinct).1
      rw [merge_cons, ih _ proper.tail.2, get?_put, get?]
      by_cases same : own = key
      · rw [if_pos same, if_pos same, ← same, get?_of_not_mem absent]
      · rw [if_neg same, if_neg same]

theorem mergeValue_none (v : Value ω) : mergeValue none v = v := by
  unfold mergeValue
  cases v <;> rfl

theorem put_of_not_mem {fields : Fields ω} {key : String} (absent : key ∉ fields.map Prod.fst)
    (value : Value ω) : put fields key value = fields ++ [(key, value)] := by
  induction fields with
  | nil => rfl
  | cons e fields ih =>
      obtain ⟨k, v⟩ := e
      rw [List.map_cons, List.mem_cons, not_or] at absent
      rw [put, if_neg (Ne.symm absent.1), ih absent.2, List.cons_append]

/-- A sum with nothing. -/
theorem nil_merge {fields : Fields ω} (proper : Proper (.map fields)) :
    merge [] fields = fields := by
  have appended : ∀ {front back : Fields ω}, ((front ++ back).map Prod.fst).Nodup →
      merge front back = front ++ back := by
    intro front back distinct
    induction back generalizing front with
    | nil => rw [merge, List.append_nil]
    | cons e back ih =>
        obtain ⟨key, v⟩ := e
        have absent : key ∉ front.map Prod.fst := by
          rw [List.map_append, List.map_cons] at distinct
          exact fun old => (List.nodup_append.mp distinct).2.2 key old key List.mem_cons_self rfl
        rw [merge_cons, get?_of_not_mem absent, mergeValue_none, put_of_not_mem absent, ih]
        · rw [List.append_assoc, List.singleton_append]
        · rw [List.append_assoc, List.singleton_append]
          exact distinct
  exact appended proper.distinct

mutual

theorem proper_mergeValue {prior : Option (Value ω)} (old : ∀ v ∈ prior, Proper v) :
    ∀ {value : Value ω}, Proper value → Proper (mergeValue prior value)
  | .num n, _ => by
      unfold mergeValue
      split <;> exact .num _
  | .other o, own => by
      rw [mergeValue]
      exact own
  | .map fields, own => by
      unfold mergeValue
      split
      · next p => exact proper_merge (old _ rfl) own
      · exact own

theorem proper_merge {merged : Fields ω} (old : Proper (.map merged)) :
    ∀ {fields : Fields ω}, Proper (.map fields) → Proper (.map (merge merged fields))
  | [], _ => by
      rw [merge]
      exact old
  | (key, value) :: rest, own => by
      rw [merge_cons]
      exact proper_merge (old.put key (proper_mergeValue (fun _ found => old.get? found)
        own.tail.1)) own.tail.2

end

theorem proper_total {us : List (Fields ω)} (proper : ∀ u ∈ us, Proper (.map u)) :
    Proper (.map (total us)) := by
  rw [total]
  have started := Proper.nil (ω := ω)
  generalize ([] : Fields ω) = start at started ⊢
  induction us generalizing start with
  | nil => exact started
  | cons u us ih =>
      rw [List.forall_mem_cons] at proper
      exact ih proper.2 _ (proper_merge started proper.1)

/-! Paths. -/

/-- What is not a number. -/
inductive Word (ω : Type) where
  | other (o : ω)
  | map

inductive Node (ω : Type) where
  | num (n : ℚ)
  | word (w : Word ω)

def Value.node : Value ω → Node ω
  | .num n => .num n
  | .other o => .word (.other o)
  | .map _ => .word .map

/-- What stands at the end of a path of keys. -/
def nodeAt : Value ω → List String → Option (Node ω)
  | v, [] => some v.node
  | .map fields, key :: path => (get? fields key).bind fun v => nodeAt v path
  | _, _ :: _ => none

/-- The two mappings are equal, as mappings are compared. -/
def Same (a b : Fields ω) : Prop := ∀ path, nodeAt (.map a) path = nodeAt (.map b) path

/-- What a later value does at a path of what it is summed to. -/
inductive Event (ω : Type) where
  | skip
  | clear
  | put (w : Word ω)
  | add (n : ℚ)

def event : Value ω → List String → Event ω
  | .num n, [] => .add n
  | .other o, [] => .put (.other o)
  | .map _, [] => .put .map
  | .map fields, key :: path =>
    match get? fields key with
    | none => .skip
    | some v => event v path
  | _, _ :: _ => .clear

section
-- The equations are made here, once, for the lemmas that follow.
attribute [local simp] event
end

def step (s : Option (Node ω)) : Event ω → Option (Node ω)
  | .skip => s
  | .clear => none
  | .put w => some (.word w)
  | .add n =>
    match s with
    | some (.num p) => some (.num (p + n))
    | _ => some (.num n)

theorem nodeAt_map_cons (fields : Fields ω) (key : String) (path : List String) :
    nodeAt (.map fields) (key :: path) = (get? fields key).bind fun v => nodeAt v path := rfl

theorem nodeAt_eq_step (v : Value ω) (path : List String) :
    nodeAt v path = step none (event v path) := by
  induction path generalizing v with
  | nil => cases v <;> rfl
  | cons key path ih =>
      cases v with
      | num n => rfl
      | other o => rfl
      | map fields =>
          rw [nodeAt, event]
          cases get? fields key with
          | none => rfl
          | some v => exact ih v

/-- A sum at a path. -/
theorem nodeAt_mergeValue (path : List String)
    (nested : ∀ (p : Fields ω) {fields : Fields ω}, Proper (.map fields) →
      nodeAt (.map (merge p fields)) path =
        step (nodeAt (.map p) path) (event (.map fields) path))
    (prior : Option (Value ω)) {v : Value ω} (proper : Proper v) :
    nodeAt (mergeValue prior v) path =
      step (prior.bind fun p => nodeAt p path) (event v path) := by
  unfold mergeValue
  cases v with
  | num n => cases path <;> rcases prior with _ | (p | o | fields) <;> rfl
  | other o => cases path <;> rfl
  | map fields =>
      have replaced : ∀ s : Option (Node ω), (path ≠ [] → s = none) →
          nodeAt (.map fields) path = step s (event (.map fields) path) := by
        intro s empty
        cases path with
        | nil => rfl
        | cons key path =>
            rw [empty (List.cons_ne_nil key path)]
            exact nodeAt_eq_step _ _
      rcases prior with _ | (p | o | p)
      · exact replaced none fun _ => rfl
      · exact replaced _ fun filled => by cases path <;> first | exact absurd rfl filled | rfl
      · exact replaced _ fun filled => by cases path <;> first | exact absurd rfl filled | rfl
      · exact nested p proper

theorem nodeAt_merge (merged : Fields ω) {fields : Fields ω} (proper : Proper (.map fields))
    (path : List String) :
    nodeAt (.map (merge merged fields)) path =
      step (nodeAt (.map merged) path) (event (.map fields) path) := by
  induction path generalizing merged fields with
  | nil => rfl
  | cons key path ih =>
      rw [nodeAt_map_cons, get?_merge merged proper, event]
      cases found : get? fields key with
      | none => rfl
      | some v =>
          exact nodeAt_mergeValue path (fun p _ own => ih p own) (get? merged key)
            (proper.get? found)

theorem nodeAt_foldl {us : List (Fields ω)} (proper : ∀ u ∈ us, Proper (.map u))
    (start : Fields ω) (path : List String) :
    nodeAt (.map (us.foldl merge start)) path =
      (us.map fun u => event (.map u) path).foldl step (nodeAt (.map start) path) := by
  induction us generalizing start with
  | nil => rfl
  | cons u us ih =>
      rw [List.forall_mem_cons] at proper
      rw [List.foldl_cons, ih proper.2, List.map_cons, List.foldl_cons,
        nodeAt_merge start proper.1]

/-! What a sum does to what it is summed to. -/

/-- The later value puts something else in the number's place. -/
def Event.resets : Event ω → Bool
  | .skip | .add _ => false
  | .clear | .put _ => true

def Event.adds : Event ω → Bool
  | .add _ => true
  | _ => false

/-- A path that a sum cuts off is one that a part of it cuts off. -/
theorem event_mergeValue_clear {path : List String}
    (nested : ∀ (p : Fields ω) {fields : Fields ω}, Proper (.map fields) →
      event (.map (merge p fields)) path = .clear →
      event (.map p) path = .clear ∨ event (.map fields) path = .clear)
    {prior : Option (Value ω)} {v : Value ω} (proper : Proper v)
    (clears : event (mergeValue prior v) path = .clear) :
    (∃ p ∈ prior, event p path = .clear) ∨ event v path = .clear := by
  unfold mergeValue at clears
  cases v with
  | num n =>
      cases path with
      | nil => rcases prior with _ | (p | o | fields) <;> cases clears
      | cons key path => exact .inr rfl
  | other o => exact .inr clears
  | map fields =>
      rcases prior with _ | (p | o | p)
      · exact .inr clears
      · exact .inr clears
      · exact .inr clears
      · exact (nested p proper clears).imp_left fun own => ⟨_, rfl, own⟩

theorem event_merge_clear (merged : Fields ω) {fields : Fields ω} (proper : Proper (.map fields))
    {path : List String} (clears : event (.map (merge merged fields)) path = .clear) :
    event (.map merged) path = .clear ∨ event (.map fields) path = .clear := by
  induction path generalizing merged fields with
  | nil => cases clears
  | cons key path ih =>
      rw [event, get?_merge merged proper] at clears
      rw [event, event]
      cases found : get? fields key with
      | none =>
          rw [found] at clears
          exact .inl clears
      | some v =>
          rw [found] at clears
          rcases event_mergeValue_clear (fun p _ own => ih p own) (proper.get? found) clears with
            ⟨p, old, own⟩ | own
          · exact .inl (by rw [old]; exact own)
          · exact .inr own

theorem event_foldl_clear {us : List (Fields ω)} (proper : ∀ u ∈ us, Proper (.map u))
    {start : Fields ω} {path : List String}
    (clears : event (.map (us.foldl merge start)) path = .clear) :
    event (.map start) path = .clear ∨ ∃ u ∈ us, event (.map u) path = .clear := by
  induction us generalizing start with
  | nil => exact .inl clears
  | cons u us ih =>
      rw [List.forall_mem_cons] at proper
      rcases ih proper.2 clears with first | ⟨v, member, own⟩
      · rcases event_merge_clear start proper.1 first with old | own
        · exact .inl old
        · exact .inr ⟨u, List.mem_cons_self, own⟩
      · exact .inr ⟨v, List.mem_cons_of_mem u member, own⟩

theorem step_add_add (s : Option (Node ω)) (p q : ℚ) :
    step (step s (.add p)) (.add q) = step s (.add (p + q)) := by
  rcases s with _ | (n | w)
  · rfl
  · change some (Node.num (n + p + q)) = some (Node.num (n + (p + q)))
    rw [add_assoc]
  · rfl

/-- Numbers that are only added up have the same effect everywhere. -/
theorem foldl_step_adds {events : List (Event ω)} (plain : ∀ e ∈ events, e.resets = false) :
    (events.any Event.adds = false ∧ ∀ s, events.foldl step s = s) ∨
    events.any Event.adds = true ∧ ∃ q, ∀ s, events.foldl step s = step s (.add q) := by
  induction events using List.reverseRecOn with
  | nil => exact .inl ⟨rfl, fun _ => rfl⟩
  | append_singleton events e ih =>
      have last := plain e (by simp)
      simp only [List.foldl_append, List.foldl_cons, List.foldl_nil, List.any_append]
      rcases ih fun e member => plain e (by simp [member]) with ⟨none_, same⟩ | ⟨some_, q, adds⟩
      · cases e with
        | skip => exact .inl ⟨by rw [none_]; rfl, same⟩
        | clear => cases last
        | put w => cases last
        | add n => exact .inr ⟨by rw [none_]; rfl, n, fun s => by rw [same]⟩
      · cases e with
        | skip => exact .inr ⟨by rw [some_]; rfl, q, adds⟩
        | clear => cases last
        | put w => cases last
        | add n => exact .inr ⟨by rw [some_]; rfl, q + n, fun s => by rw [adds, step_add_add]⟩

/-- After a reset it does not matter what was there. -/
theorem foldl_step_resets {events : List (Event ω)} (resets : ∃ e ∈ events, e.resets = true)
    (s t : Option (Node ω)) : events.foldl step s = events.foldl step t := by
  induction events generalizing s t with
  | nil => simp at resets
  | cons e events ih =>
      cases e with
      | clear => rfl
      | put w => rfl
      | skip => exact ih (by simpa [Event.resets] using resets) _ _
      | add n => exact ih (by simpa [Event.resets] using resets) _ _

/-! Parts that are summed by themselves first. -/

/-- Some of the mappings, at a path: whether any of them resets it, and what their sum does. -/
structure Part (ω : Type) where
  resets : Bool
  event : Event ω

def partAt (path : List String) (us : List (Fields ω)) : Part ω :=
  ⟨us.any fun u => (event (.map u) path).resets, event (.map (total us)) path⟩

/-- What the mappings of the part do one by one. -/
def Part.singly (s : Option (Node ω)) (b : Part ω) : Option (Node ω) :=
  step (if b.resets then none else s) b.event

/-- What their sum does. -/
def Part.summed (s : Option (Node ω)) (b : Part ω) : Option (Node ω) := step s b.event

theorem nodeAt_total {us : List (Fields ω)} (proper : ∀ u ∈ us, Proper (.map u))
    {path : List String} (below : path ≠ []) :
    nodeAt (.map (total us)) path = (us.map fun u => event (.map u) path).foldl step none := by
  rw [total, nodeAt_foldl proper]
  cases path with
  | nil => exact absurd rfl below
  | cons key path => rfl

theorem foldl_step_part {us : List (Fields ω)} (proper : ∀ u ∈ us, Proper (.map u))
    {path : List String} (below : path ≠ []) (s : Option (Node ω)) :
    (us.map fun u => event (.map u) path).foldl step s = (partAt path us).singly s := by
  have own := nodeAt_total proper below
  rw [nodeAt_eq_step] at own
  rw [Part.singly, partAt]
  simp only
  split
  case isTrue resets =>
    rw [own]
    refine foldl_step_resets ?_ s none
    obtain ⟨u, member, reset⟩ := List.any_eq_true.mp resets
    exact ⟨_, List.mem_map_of_mem member, reset⟩
  case isFalse plain =>
    have plain : ∀ e ∈ us.map fun u => event (.map u) path, e.resets = false := by
      simpa using plain
    rcases foldl_step_adds plain with ⟨_, same⟩ | ⟨_, q, adds⟩
    · rw [same] at own ⊢
      cases total_ : event (.map (total us)) path with
      | skip => rfl
      | clear =>
          rcases event_foldl_clear proper total_ with first | ⟨u, member, clears⟩
          · cases path with
            | nil => cases first
            | cons key path => cases first
          · have reset := plain _ (List.mem_map_of_mem member)
            rw [clears] at reset
            cases reset
      | put w =>
          rw [total_] at own
          cases own
      | add n =>
          rw [total_] at own
          cases own
    · rw [adds] at own ⊢
      cases total_ : event (.map (total us)) path with
      | skip =>
          rw [total_] at own
          cases own
      | clear =>
          rw [total_] at own
          cases own
      | put w =>
          rw [total_] at own
          cases own
      | add n =>
          rw [total_] at own
          cases own
          rfl

section

variable {parts : List (List (Fields ω))} (proper : ∀ us ∈ parts, ∀ u ∈ us, Proper (.map u))
  {path : List String} (below : path ≠ [])
include proper below

theorem nodeAt_total_flatten : nodeAt (.map (total parts.flatten)) path =
    (parts.map (partAt path)).foldl Part.singly none := by
  rw [nodeAt_total (fun u member => by
    obtain ⟨us, own, inside⟩ := List.mem_flatten.mp member
    exact proper us own u inside) below]
  generalize (none : Option (Node ω)) = s
  induction parts generalizing s with
  | nil => rfl
  | cons us parts ih =>
      rw [List.forall_mem_cons] at proper
      rw [List.flatten_cons, List.map_append, List.foldl_append, foldl_step_part proper.1 below,
        ih proper.2]
      rfl

theorem nodeAt_total_total : nodeAt (.map (total (parts.map total))) path =
    (parts.map (partAt path)).foldl Part.summed none := by
  rw [nodeAt_total (fun u member => by
    obtain ⟨us, own, rfl⟩ := List.mem_map.mp member
    exact proper_total (proper us own)) below, List.map_map, List.foldl_map, List.foldl_map]
  rfl

end

/-- The part changes what stands at the path: its sum does, or one of its mappings does, which the
sum need not show. -/
def Part.changes (b : Part ω) : Bool := b.resets || b.event.resets

/-- `s` is what the parts before have summed up to at the path. Before the last part that changes
anything there, if its sum does not show the change, that must be nothing: no number but zero if a
number follows, and else nothing at all. -/
def Settled (s : Option (Node ω)) : List (Part ω) → Prop
  | [] => True
  | b :: rest =>
    if rest.any Part.changes then Settled (b.summed s) rest
    else b.resets = true → b.event.resets = false →
      if (b :: rest).any fun c => c.event.adds then ∀ p, s = some (.num p) → p = 0 else s = none

theorem foldl_singly_unchanged {rest : List (Part ω)} (quiet : rest.any Part.changes = false)
    (s : Option (Node ω)) :
    rest.foldl Part.singly s = (rest.map Part.event).foldl step s ∧
      ∀ e ∈ rest.map Part.event, e.resets = false := by
  induction rest generalizing s with
  | nil => exact ⟨rfl, by simp⟩
  | cons b rest ih =>
      rw [List.any_cons, Bool.or_eq_false_iff, Part.changes, Bool.or_eq_false_iff] at quiet
      obtain ⟨⟨still, hidden⟩, quiet⟩ := quiet
      have own : b.singly s = step s b.event := by
        rw [Part.singly, still]
        rfl
      refine ⟨?_, ?_⟩
      · rw [List.foldl_cons, own, (ih quiet _).1, List.map_cons, List.foldl_cons]
      · rw [List.map_cons, List.forall_mem_cons]
        exact ⟨hidden, (ih quiet s).2⟩

theorem foldl_summed (parts : List (Part ω)) (s : Option (Node ω)) :
    parts.foldl Part.summed s = (parts.map Part.event).foldl step s := by
  rw [List.foldl_map]
  rfl

theorem step_none_eq_iff (s : Option (Node ω)) (q : ℚ) :
    step none (.add q) = step s (.add q) ↔ ∀ p, s = some (.num p) → p = 0 := by
  rcases s with _ | (n | w)
  · simp [step]
  · simp [step]
  · simp [step]

/-- The two sums agree at a path. -/
theorem foldl_eq_iff_of_changes {parts : List (Part ω)} (changes : parts.any Part.changes = true)
    (w s : Option (Node ω)) :
    parts.foldl Part.singly w = parts.foldl Part.summed s ↔ Settled s parts := by
  induction parts generalizing w s with
  | nil => cases changes
  | cons b rest ih =>
      rw [Settled]
      split
      case isTrue later => exact ih later _ _
      case isFalse quiet =>
        have quiet : rest.any Part.changes = false := by simpa using quiet
        rw [List.foldl_cons, (foldl_singly_unchanged quiet _).1, foldl_summed, List.map_cons,
          List.foldl_cons]
        cases shown : b.event.resets with
        | true =>
            have constant : b.singly w = step s b.event := by
              rw [Part.singly]
              cases own : b.event with
              | clear => rfl
              | put w => rfl
              | skip =>
                  rw [own] at shown
                  cases shown
              | add n =>
                  rw [own] at shown
                  cases shown
            simp [constant]
        | false =>
            have resets : b.resets = true := by
              rw [List.any_cons, quiet, Part.changes, shown] at changes
              simpa using changes
            have plain : ∀ e ∈ (b :: rest).map Part.event, e.resets = false := by
              rw [List.map_cons, List.forall_mem_cons]
              exact ⟨shown, (foldl_singly_unchanged quiet none).2⟩
            have any_ : ((b :: rest).any fun c => c.event.adds) =
                ((b :: rest).map Part.event).any Event.adds := by
              rw [List.any_map]
              rfl
            have forgets : b.singly w = step none b.event := by rw [Part.singly, if_pos resets]
            rw [forgets, ← List.foldl_cons, ← List.foldl_cons, ← List.map_cons, any_]
            simp only [resets, forall_const]
            rcases foldl_step_adds plain with ⟨none_, same⟩ | ⟨some_, q, adds⟩
            · rw [same, same, none_, if_neg Bool.false_ne_true]
              exact eq_comm
            · rw [adds, adds, some_, if_pos rfl]
              exact step_none_eq_iff s q

theorem settled_of_unchanged {parts : List (Part ω)} (quiet : parts.any Part.changes = false)
    (s : Option (Node ω)) : Settled s parts := by
  cases parts with
  | nil => trivial
  | cons b rest =>
      rw [List.any_cons, Bool.or_eq_false_iff, Part.changes, Bool.or_eq_false_iff] at quiet
      rw [Settled, if_neg (by simp [quiet.2])]
      intro resets
      rw [quiet.1.1] at resets
      cases resets

theorem foldl_eq_iff (parts : List (Part ω)) (s : Option (Node ω)) :
    parts.foldl Part.singly s = parts.foldl Part.summed s ↔ Settled s parts := by
  cases changes : parts.any Part.changes with
  | true => exact foldl_eq_iff_of_changes changes s s
  | false =>
      have same : parts.foldl Part.singly s = parts.foldl Part.summed s := by
        rw [(foldl_singly_unchanged changes s).1, foldl_summed]
      exact iff_of_true same (settled_of_unchanged changes s)

/-- Mappings that are summed part by part have the sum of them all exactly where every path is
settled. -/
theorem same_total_iff {parts : List (List (Fields ω))}
    (proper : ∀ us ∈ parts, ∀ u ∈ us, Proper (.map u)) :
    Same (total (parts.map total)) (total parts.flatten) ↔
      ∀ key path, Settled none (parts.map (partAt (key :: path))) := by
  constructor
  · intro same key path
    have here := same (key :: path)
    rw [nodeAt_total_total proper (List.cons_ne_nil _ _),
      nodeAt_total_flatten proper (List.cons_ne_nil _ _)] at here
    exact (foldl_eq_iff _ _).mp here.symm
  · intro settled path
    cases path with
    | nil => rfl
    | cons key path =>
        rw [nodeAt_total_total proper (List.cons_ne_nil _ _),
          nodeAt_total_flatten proper (List.cons_ne_nil _ _)]
        exact ((foldl_eq_iff _ _).mpr (settled key path)).symm

end Uta.Lib.NestedSums
