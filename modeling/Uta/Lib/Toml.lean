/- The tables of a TOML document, line by line: where strings, comments and arrays end decides
which lines are headers. -/
import Uta.Lib.Json
import Uta.Lib.PyText
import Mathlib.Data.List.DropRight

namespace Uta.Lib.Toml

abbrev Line := List Char

/-! Lines. -/

/-- The two kinds of strings. A literal string has no escapes. -/
inductive Quotes where
  | basic | literal
  deriving DecidableEq, Repr

/-- The apostrophe of a literal string, or the quotation mark of a basic one. -/
def Quotes.mark : Quotes → Char
  | .basic => '"'
  | .literal => Char.ofNat 39

/-- Where a reader stands: outside strings, in a comment, after opening marks, in a string or in one
of several lines, with the closing marks that it has just read. -/
inductive Mode where
  | plain
  | comment
  | opened (q : Quotes)
  | empty (q : Quotes)
  | single (q : Quotes)
  | escaped
  | multi (q : Quotes) (marks : ℕ)
  | multiEscaped
  | closed (q : Quotes) (more : ℕ)
  deriving DecidableEq, Repr

/-- With the arrays that are open. -/
structure State where
  mode : Mode
  depth : ℕ
  deriving DecidableEq, Repr

def State.top : State := ⟨.plain, 0⟩

/-- A character outside strings and comments. -/
def plainStep (depth : ℕ) (c : Char) : State :=
  if c = '#' then ⟨.comment, depth⟩
  else if c = Quotes.basic.mark then ⟨.opened .basic, depth⟩
  else if c = Quotes.literal.mark then ⟨.opened .literal, depth⟩
  else if c = '[' then ⟨.plain, depth + 1⟩
  else if c = ']' then ⟨.plain, depth - 1⟩
  else ⟨.plain, depth⟩

/-- A character of a string in one line. -/
def singleStep (q : Quotes) (depth : ℕ) (c : Char) : State :=
  if c = q.mark then ⟨.plain, depth⟩
  else if q = .basic ∧ c = '\\' then ⟨.escaped, depth⟩
  else ⟨.single q, depth⟩

def State.step (st : State) (c : Char) : State :=
  match st.mode with
  | .plain => plainStep st.depth c
  | .comment => st
  | .opened q => if c = q.mark then ⟨.empty q, st.depth⟩ else singleStep q st.depth c
  | .empty q => if c = q.mark then ⟨.multi q 0, st.depth⟩ else plainStep st.depth c
  | .single q => singleStep q st.depth c
  | .escaped => ⟨.single .basic, st.depth⟩
  | .multi q marks =>
    if c = q.mark then
      if marks = 2 then ⟨.closed q 0, st.depth⟩ else ⟨.multi q (marks + 1), st.depth⟩
    else if q = .basic ∧ c = '\\' then ⟨.multiEscaped, st.depth⟩
    else ⟨.multi q 0, st.depth⟩
  | .multiEscaped => ⟨.multi .basic 0, st.depth⟩
  -- Up to two marks before the closing ones belong to the string.
  | .closed q more =>
    if c = q.mark ∧ more < 2 then ⟨.closed q (more + 1), st.depth⟩ else plainStep st.depth c

/-- The end of a line. A string in one line ends with it at the latest. -/
def State.endLine (st : State) : State :=
  match st.mode with
  | .multi q _ => ⟨.multi q 0, st.depth⟩
  | .multiEscaped => ⟨.multi .basic 0, st.depth⟩
  | _ => ⟨.plain, st.depth⟩

def State.next (st : State) (line : Line) : State := (line.foldl State.step st).endLine

def State.run (st : State) (lines : List Line) : State := lines.foldl State.next st

/-- A line that starts a table. -/
def State.Heads (st : State) (line : Line) : Prop :=
  st = .top ∧ (PyText.strip line).head? = some '['

instance (st : State) (line : Line) : Decidable (st.Heads line) :=
  inferInstanceAs (Decidable (_ ∧ _))

/-! Tables. -/

structure Table where
  header : Line
  content : List Line
  deriving DecidableEq, Repr

def Table.lines (t : Table) : List Line := t.header :: t.content

/-- The lines before the first header, and the tables. -/
def sections (st : State) : List Line → List Line × List Table
  | [] => ([], [])
  | line :: rest =>
    let later := sections (st.next line) rest
    if st.Heads line then ([], ⟨line, later.1⟩ :: later.2) else (line :: later.1, later.2)

/-- The lines of a document, without empty lines at its start and blanks at its end. -/
def docLines (text : List Char) : List Line :=
  ((text.rdropWhile PyText.isSpace).splitOn '\n').dropWhile (· = [])

def tables (text : List Char) : List Line × List Table := sections .top (docLines text)

/-- One key of a header: bare, or in quotes without escapes. -/
def bareKey (key : List Char) : List Char :=
  let key := PyText.strip key
  match key.head? with
  | some mark =>
    if (mark = Quotes.basic.mark ∨ mark = Quotes.literal.mark) ∧ 2 ≤ key.length ∧
        key.getLast? = some mark then key.tail.dropLast
    else key
  | none => key

/-- The keys of a header. -/
def headerKeys (line : Line) : List (List Char) :=
  (((PyText.strip line).tail.takeWhile (· ≠ ']')).splitOn '.').map bareKey

/-- A table in place of the first of a kind, or after all others. -/
def replaceTable (kind : Table → Bool) (new : Table) : List Table → List Table
  | [] => [new]
  | t :: rest => if kind t then new :: rest else t :: replaceTable kind new rest

section Sections
variable {st : State}

theorem run_append (first second : List Line) :
    st.run (first ++ second) = (st.run first).run second :=
  List.foldl_append

theorem run_cons (line : Line) (rest : List Line) : st.run (line :: rest) = (st.next line).run rest := rfl

theorem sections_head {line : Line} (heads : st.Heads line) (rest : List Line) :
    sections st (line :: rest) = ([], ⟨line, (sections (st.next line) rest).1⟩ ::
      (sections (st.next line) rest).2) := by
  rw [sections, if_pos heads]

theorem sections_own {line : Line} (own : ¬ st.Heads line) (rest : List Line) :
    sections st (line :: rest) = (line :: (sections (st.next line) rest).1,
      (sections (st.next line) rest).2) := by
  rw [sections, if_neg own]

/-- The tables have all lines of the document, in order. -/
theorem sections_lines (st : State) (lines : List Line) :
    (sections st lines).1 ++ (sections st lines).2.flatMap Table.lines = lines := by
  induction lines generalizing st with
  | nil => rfl
  | cons line rest ih =>
      by_cases heads : st.Heads line
      · rw [sections_head heads, List.nil_append, List.flatMap_cons]
        change line :: (_ ++ _) = _
        rw [ih]
      · rw [sections_own heads, List.cons_append, ih]

/-- Before a header, or at the end, a document can be cut. -/
theorem sections_append {first second : List Line}
    (cut : ∀ line, second.head? = some line → (st.run first).Heads line) :
    sections st (first ++ second) = ((sections st first).1,
      (sections st first).2 ++ (sections (st.run first) second).2) ∧
      (sections (st.run first) second).1 = [] := by
  induction first generalizing st with
  | nil =>
      cases second with
      | nil => exact ⟨rfl, rfl⟩
      | cons line rest =>
          have heads : st.Heads line := cut line rfl
          have own : (sections st (line :: rest)).1 = [] := by rw [sections_head heads]
          exact ⟨Prod.ext own rfl, own⟩
  | cons line rest ih =>
      obtain ⟨joined, own⟩ := ih cut
      refine ⟨?_, own⟩
      by_cases heads : st.Heads line
      · rw [List.cons_append, sections_head heads, sections_head heads, joined]
        rfl
      · rw [List.cons_append, sections_own heads, sections_own heads, joined]
        rfl

/-- The lines before the first header. -/
theorem sections_first (st : State) (lines : List Line) :
    sections st (sections st lines).1 = ((sections st lines).1, []) ∧
      ∀ line, ((sections st lines).2.flatMap Table.lines).head? = some line →
        (st.run (sections st lines).1).Heads line := by
  induction lines generalizing st with
  | nil => exact ⟨rfl, fun line first => by cases first⟩
  | cons line rest ih =>
      by_cases heads : st.Heads line
      · rw [sections_head heads]
        refine ⟨rfl, fun other first => ?_⟩
        obtain rfl : line = other := by simpa [Table.lines] using first
        exact heads
      · obtain ⟨own, later⟩ := ih (st.next line)
        rw [sections_own heads]
        refine ⟨?_, later⟩
        change sections st (line :: _) = _
        rw [sections_own heads, own]

/-- A table of a document: what stands before it, its own lines and what stands after it are documents
of their own. -/
theorem sections_split {lines root : List Line} {before after : List Table} {t : Table}
    (split : sections st lines = (root, before ++ t :: after)) :
    sections st (root ++ before.flatMap Table.lines) = (root, before) ∧
      (st.run (root ++ before.flatMap Table.lines)).Heads t.header ∧
      sections ((st.run (root ++ before.flatMap Table.lines)).next t.header) t.content =
        (t.content, []) ∧
      (∀ line, (after.flatMap Table.lines).head? = some line →
        (((st.run (root ++ before.flatMap Table.lines)).next t.header).run t.content).Heads line) ∧
      sections (((st.run (root ++ before.flatMap Table.lines)).next t.header).run t.content)
        (after.flatMap Table.lines) = ([], after) := by
  induction lines generalizing st root before with
  | nil =>
      have empty := congrArg Prod.snd split
      cases before <;> cases empty
  | cons line rest ih =>
      by_cases heads : st.Heads line
      · rw [sections_head heads, Prod.mk.injEq] at split
        obtain ⟨rfl, split⟩ := split
        cases before with
        | nil =>
            obtain ⟨rfl, rfl⟩ := List.cons.inj split
            obtain ⟨own, later⟩ := sections_first (st.next line) rest
            refine ⟨rfl, heads, own, later, ?_⟩
            have whole := sections_lines (st.next line) rest
            obtain ⟨joined, none_⟩ := @sections_append (st.next line) _ _ later
            rw [whole, own] at joined
            exact Prod.ext none_ (congrArg Prod.snd joined).symm
        | cons b before =>
            obtain ⟨same, more⟩ := List.cons.inj split
            subst same
            have deeper : sections (st.next line) rest =
                ((sections (st.next line) rest).1, before ++ t :: after) := Prod.ext rfl more
            obtain ⟨own, facts⟩ := ih deeper
            refine ⟨?_, facts⟩
            have shape : ([] : List Line) ++ (⟨line, (sections (st.next line) rest).1⟩ :: before).flatMap
                Table.lines = line :: ((sections (st.next line) rest).1 ++ before.flatMap Table.lines) := rfl
            rw [shape, sections_head heads, own]
      · rw [sections_own heads, Prod.mk.injEq] at split
        obtain ⟨rfl, more⟩ := split
        have deeper : sections (st.next line) rest =
            ((sections (st.next line) rest).1, before ++ t :: after) := Prod.ext rfl more
        obtain ⟨own, facts⟩ := ih deeper
        refine ⟨?_, facts⟩
        rw [List.cons_append, sections_own heads, own]

end Sections

/-- The other tables are those of before. -/
theorem filter_replaceTable {kind : Table → Bool} {new : Table} (own : kind new = true)
    (ts : List Table) :
    (replaceTable kind new ts).filter (fun t => !kind t) = ts.filter (fun t => !kind t) := by
  induction ts with
  | nil => simp [replaceTable, own]
  | cons t ts ih =>
      cases here : kind t with
      | true => simp [replaceTable, here, own]
      | false => simp [replaceTable, here, ih]

theorem replaceTable_split {kind : Table → Bool} (new : Table) {before after : List Table} {t : Table}
    (none_ : ∀ u ∈ before, kind u = false) (own : kind t = true) :
    replaceTable kind new (before ++ t :: after) = before ++ new :: after := by
  induction before with
  | nil => rw [List.nil_append, replaceTable, if_pos own, List.nil_append]
  | cons u before ih =>
      have other : ¬ kind u = true := by simp [none_ u List.mem_cons_self]
      rw [List.cons_append, replaceTable, if_neg other,
        ih fun v member => none_ v (List.mem_cons_of_mem _ member), List.cons_append]

theorem replaceTable_none {kind : Table → Bool} (new : Table) {ts : List Table}
    (none_ : ∀ u ∈ ts, kind u = false) : replaceTable kind new ts = ts ++ [new] := by
  induction ts with
  | nil => rfl
  | cons u ts ih =>
      have other : ¬ kind u = true := by simp [none_ u List.mem_cons_self]
      rw [replaceTable, if_neg other, ih fun v member => none_ v (List.mem_cons_of_mem _ member),
        List.cons_append]

/-- The first table of a kind, if there is one. -/
theorem exists_first (kind : Table → Bool) (ts : List Table) : (∀ u ∈ ts, kind u = false) ∨
    ∃ before t after, ts = before ++ t :: after ∧ (∀ u ∈ before, kind u = false) ∧ kind t = true := by
  induction ts with
  | nil => exact .inl fun u member => by cases member
  | cons u ts ih =>
      cases here : kind u with
      | true => exact .inr ⟨[], u, ts, rfl, List.forall_mem_nil _, here⟩
      | false =>
          rcases ih with none_ | ⟨before, t, after, rfl, none_, own⟩
          · exact .inl (List.forall_mem_cons.mpr ⟨here, none_⟩)
          · exact .inr ⟨u :: before, t, after, rfl, List.forall_mem_cons.mpr ⟨here, none_⟩, own⟩

/-! Strings as `json.dumps` writes them. -/

section Strings
variable {st : State} {depth : ℕ}

/-- A string has just ended, and no mark follows. -/
def State.Settled (st : State) (depth : ℕ) : Prop :=
  st = ⟨.plain, depth⟩ ∨ st = ⟨.empty .basic, depth⟩

theorem State.Settled.step_eq (settled : st.Settled depth) {c : Char}
    (other : c ≠ Quotes.basic.mark) : st.step c = plainStep depth c := by
  rcases settled with rfl | rfl
  · rfl
  · exact if_neg other

/-- Inside a string, or right after its first mark. -/
def State.Inside (st : State) (depth : ℕ) : Prop :=
  st = ⟨.single .basic, depth⟩ ∨ st = ⟨.opened .basic, depth⟩

theorem State.Inside.plain (inside : st.Inside depth) {c : Char} (mark : c ≠ Quotes.basic.mark)
    (escape : c ≠ '\\') : st.step c = ⟨.single .basic, depth⟩ := by
  have single : singleStep .basic depth c = ⟨.single .basic, depth⟩ := by
    rw [singleStep, if_neg mark, if_neg fun both => escape both.2]
  rcases inside with rfl | rfl
  · exact single
  · exact (if_neg mark).trans single

theorem State.Inside.escape (inside : st.Inside depth) :
    st.step '\\' = ⟨.escaped, depth⟩ := by
  rcases inside with rfl | rfl <;> rfl

theorem hexDigit_plain (n : ℕ) :
    Json.hexDigit (n % 16) ≠ Quotes.basic.mark ∧ Json.hexDigit (n % 16) ≠ '\\' := by
  have digits : ∀ d < 16, Json.hexDigit d ≠ Quotes.basic.mark ∧ Json.hexDigit d ≠ '\\' := by decide
  exact digits _ (Nat.mod_lt _ (by decide))

theorem run_escapeUnit (inside : st.Inside depth) (n : ℕ) :
    (Json.escapeUnit n).foldl State.step st = ⟨.single .basic, depth⟩ := by
  rw [Json.escapeUnit, List.foldl_cons, inside.escape]
  have after : State.step ⟨.escaped, depth⟩ 'u' = ⟨.single .basic, depth⟩ := rfl
  rw [List.foldl_cons, after, Json.hex4]
  have digit : ∀ n, State.step ⟨.single .basic, depth⟩ (Json.hexDigit (n % 16)) =
      ⟨.single .basic, depth⟩ := fun n =>
    State.Inside.plain (.inl rfl) (hexDigit_plain n).1 (hexDigit_plain n).2
  simp only [List.foldl_cons, List.foldl_nil, digit]

theorem run_escapeUnits (inside : st.Inside depth) {units : List ℕ} (some_ : units ≠ []) :
    (units.flatMap Json.escapeUnit).foldl State.step st = ⟨.single .basic, depth⟩ := by
  induction units generalizing st with
  | nil => exact absurd rfl some_
  | cons n units ih =>
      rw [List.flatMap_cons, List.foldl_append, run_escapeUnit inside]
      by_cases last : units = []
      · rw [last]
        rfl
      · exact ih (.inl rfl) last

theorem run_escapeChar (inside : st.Inside depth) (c : Char) :
    (Json.escapeChar true c).foldl State.step st = ⟨.single .basic, depth⟩ := by
  unfold Json.escapeChar
  split
  · next pair _ =>
      rw [List.foldl_cons, inside.escape]
      rfl
  · next none_ =>
      have mark : c ≠ Quotes.basic.mark := by
        rintro rfl
        exact absurd none_ (by decide)
      have escape : c ≠ '\\' := by
        rintro rfl
        exact absurd none_ (by decide)
      split
      · exact run_escapeUnit inside _
      · split
        · refine run_escapeUnits inside ?_
          unfold Json.utf16
          split <;> simp
        · exact inside.plain mark escape

theorem run_escape (inside : st.Inside depth) (text : List Char) :
    ((Json.escape true text).foldl State.step st).Inside depth := by
  induction text generalizing st with
  | nil => exact inside
  | cons c text ih =>
      rw [Json.escape, List.flatMap_cons, List.foldl_append, run_escapeChar inside]
      exact ih (.inl rfl)

theorem run_quote (text : String) :
    ((Json.quote true text).foldl State.step ⟨.plain, depth⟩).Settled depth := by
  rw [Json.quote, List.foldl_cons, List.foldl_append]
  have opened : State.step ⟨.plain, depth⟩ '"' = ⟨.opened .basic, depth⟩ := rfl
  rw [opened]
  rcases run_escape (.inr rfl) text.toList with inside | inside
  · rw [inside]
    exact .inl rfl
  · rw [inside]
    exact .inr rfl

/-- The items of an array, from its bracket on. -/
theorem run_items (items : List String) :
    ((", ".toList.intercalate (items.map (Json.quote true))).foldl State.step
      ⟨.plain, depth⟩).Settled depth := by
  induction items with
  | nil => exact .inl rfl
  | cons item items ih =>
      cases items with
      | nil =>
          rw [List.map_cons, List.map_nil, List.intercalate_singleton]
          exact run_quote item
      | cons next items =>
          rw [List.map_cons] at ih ⊢
          rw [List.map_cons, List.intercalate_cons_cons, List.foldl_append, List.foldl_append]
          have comma : (", ".toList).foldl State.step
              ((Json.quote true item).foldl State.step ⟨.plain, depth⟩) = ⟨.plain, depth⟩ := by
            change State.step (State.step _ ',') ' ' = _
            rw [(run_quote item).step_eq (by decide)]
            rfl
          rw [comma]
          exact ih

end Strings

end Uta.Lib.Toml
