import Asm6510.Proofs.Assembly.Carried

/-! Passes as lists of changes. A pass that succeeds makes one change for each statement, and
these changes are all that there is to know about it, its log apart.
-/

namespace Asm6510.Assembly

open Machine (InstructionSet)
open Progress (Change)

/-- The names known after a change. -/
def Symbols.grow (symbols : Symbols) (change : Change) : Symbols :=
  match change.declaration? with
  | some declaration => symbols.push declaration
  | none => symbols

/-- The counter before each of some changes made one after the other. -/
def starts (counter : Nat) : List Change → List Nat
  | [] => []
  | change :: rest => counter :: starts change.counter rest

/-- The counter after all of some changes. -/
def finish (counter : Nat) : List Change → Nat
  | [] => counter
  | change :: rest => finish change.counter rest

/-- The declarations among some changes, in their order. -/
def declarations (changes : List Change) : List Declaration :=
  changes.filterMap (·.declaration?)

/-- The rows among some changes, in their order. -/
def rows (changes : List Change) : List Row :=
  changes.filterMap (·.row?)

/-- Statements carried out one after the other, with the changes they make. -/
inductive Trace (set : InstructionSet) (pass : Pass)
    : Symbols → Nat → List Statement → List Change → Prop
  | nil {symbols : Symbols} {counter : Nat}
    : Trace set pass symbols counter [] []
  | cons {symbols : Symbols} {counter : Nat} {statement : Statement}
    {statements : List Statement} {change : Change} {changes : List Change}
    (first : Carried set pass symbols counter statement change)
    (rest : Trace set pass (symbols.grow change) change.counter statements changes)
    : Trace set pass symbols counter (statement :: statements) (change :: changes)

/-- The statements that stand for an address start where they were measured, if they were. -/
def Met : List (Statement × Option Nat) → List Nat → Prop
  | (statement, expected?) :: items, start :: starts =>
      (statement.isAnchored = true → ∀ expected ∈ expected?, expected = start)
      ∧ Met items starts
  | _, _ => True

/-- The state after some changes, up to its log. -/
structure Reaches (before : Progress) (changes : List Change) (after : Progress) : Prop where
  counter : after.counter = finish before.counter changes
  symbols : after.symbols.declarations = before.symbols.declarations ++ declarations changes
  bytes : after.bytes.toList = before.bytes.toList ++ (rows changes).flatMap (·.bytes)
  rows : after.rows.toList = before.rows.toList ++ rows changes
  starts : after.starts.toList = before.starts.toList ++ starts before.counter changes

variable {set : InstructionSet} {pass : Pass} {symbols : Symbols} {counter : Nat}
  {items : List (Statement × Option Nat)} {statements : List Statement}
  {changes : List Change} {before middle after : Progress}

/-- Statements that were never measured can start anywhere. -/
theorem met_unmeasured (statements : List Statement) (starts : List Nat)
    : Met (statements.map fun statement => (statement, none)) starts := by
  induction statements generalizing starts with
  | nil => simp [Met]
  | cons statement statements ih =>
      cases starts with
      | nil => simp [Met]
      | cons start starts => simpa [Met] using ih starts

/-- Statements start where they start. -/
theorem met_measured (statements : List Statement) (starts : List Nat)
    : Met (statements.zip (starts.map some)) starts := by
  induction statements generalizing starts with
  | nil => simp [Met]
  | cons statement statements ih =>
      cases starts with
      | nil => simp [Met]
      | cons start starts => simpa [Met] using ih starts

/-- A trace has one change for each statement. -/
theorem Trace.length_eq (trace : Trace set pass symbols counter statements changes)
    : changes.length = statements.length := by
  induction trace with
  | nil => rfl
  | cons first rest ih => simp [ih]

theorem length_starts (counter : Nat) (changes : List Change)
    : (starts counter changes).length = changes.length := by
  induction changes generalizing counter with
  | nil => rfl
  | cons change changes ih => simp [starts, ih]

theorem starts_append (counter : Nat) (earlier later : List Change)
    : starts counter (earlier ++ later)
      = starts counter earlier ++ starts (finish counter earlier) later := by
  induction earlier generalizing counter with
  | nil => rfl
  | cons change earlier ih => simp [starts, finish, ih]

/-- What is declared after a change follows what is known after it. -/
theorem declarations_grow (symbols : Symbols) (change : Change) (changes : List Change)
    : (symbols.grow change).declarations ++ declarations changes
      = symbols.declarations ++ declarations (change :: changes) := by
  cases found : change.declaration? <;>
    simp [Symbols.grow, Symbols.push, declarations, found]

/-- A trace of two parts is a trace of each, the second from where the first ends. -/
theorem Trace.split {front back : List Statement}
    (trace : Trace set pass symbols counter (front ++ back) changes)
    : ∃ earlier later,
        changes = earlier ++ later
        ∧ Trace set pass symbols counter front earlier
        ∧ Trace set pass ⟨symbols.declarations ++ declarations earlier⟩
            (finish counter earlier) back later := by
  induction front generalizing symbols counter changes with
  | nil => exact ⟨[], changes, rfl, .nil, by simpa [declarations, finish] using trace⟩
  | cons statement front ih =>
      cases trace with
      | @cons _ _ _ _ change changes first rest =>
          obtain ⟨earlier, later, rfl, before, after⟩ := ih rest
          refine ⟨change :: earlier, later, rfl, .cons first before, ?_⟩
          rw [← declarations_grow]
          exact after

/-- The second pass declares nothing. -/
theorem Carried.declaration?_assemble {statement : Statement} {change : Change}
    (carried : Carried set .assemble symbols counter statement change)
    : change.declaration? = none := by
  cases carried with
  | move | emit | label | assign | stray => rfl

/-- The second pass works with one table throughout. -/
theorem Carried.grow_assemble {statement : Statement} {change : Change}
    (carried : Carried set .assemble symbols counter statement change)
    : symbols.grow change = symbols := by
  simp [Symbols.grow, carried.declaration?_assemble]

theorem Reaches.refl (progress : Progress)
    : Reaches progress [] progress := by
  constructor <;> simp [finish, Assembly.starts, declarations, Assembly.rows]

/-- A change and the messages about it are the first step of a longer way. -/
theorem Reaches.advance {messages : List Report.Message} {change : Change}
    (rest : Reaches ((before.advance change).noting messages) changes after)
    : Reaches before (change :: changes) after where
  counter := by simpa [Progress.noting, Progress.advance, finish] using rest.counter
  symbols := by
    rw [rest.symbols]
    cases found : change.declaration? <;>
      simp [Progress.noting, Progress.advance, declarations, Symbols.push, found]
  bytes := by
    rw [rest.bytes]
    cases found : change.row? <;>
      simp [Progress.noting, Progress.advance, Assembly.rows, found]
  rows := by
    rw [rest.rows]
    cases found : change.row? <;>
      simp [Progress.noting, Progress.advance, Assembly.rows, found]
  starts := by
    rw [rest.starts]
    simp [Progress.noting, Progress.advance, Assembly.starts]

/-- A statement that succeeds leads to the state after its change. -/
theorem step_eq_none_iff {statement : Statement} {expected? : Option Nat}
    : before.step set pass expected? statement = (after, none)
      ↔ ∃ change messages,
          Carried set pass before.symbols before.counter statement change
          ∧ (statement.isAnchored = true → ∀ expected ∈ expected?, expected = before.counter)
          ∧ before.attempt set pass expected? statement = ⟨messages, .ok change⟩
          ∧ after = (before.advance change).noting messages := by
  unfold Progress.step
  constructor
  · intro stepped
    split at stepped
    · rename_i messages change attempted
      have carried := attempt_eq_ok_iff.mp
        (Logged.outcome_eq_ok.mpr (congrArg Logged.result attempted))
      have same := congrArg Prod.fst stepped
      exact ⟨change, messages, carried.1, carried.2, attempted, same.symm⟩
    · simp at stepped
  · intro found
    obtain ⟨change, messages, -, -, attempted, rfl⟩ := found
    simp [attempted]

/-- A walk that succeeds has a trace. -/
theorem trace_of_walk (walked : Progress.walk set pass items before = (after, none))
    : ∃ changes,
        Trace set pass before.symbols before.counter (items.map (·.1)) changes
        ∧ Met items (starts before.counter changes)
        ∧ Reaches before changes after := by
  induction items generalizing before with
  | nil =>
      obtain rfl : before = after := congrArg Prod.fst walked
      exact ⟨[], .nil, trivial, .refl before⟩
  | cons item items ih =>
      obtain ⟨statement, expected?⟩ := item
      rw [Progress.walk] at walked
      split at walked
      · rename_i next stepped
        obtain ⟨change, messages, carried, placed, -, rfl⟩ := step_eq_none_iff.mp stepped
        obtain ⟨changes, trace, met, reached⟩ := ih walked
        exact ⟨change :: changes, .cons carried trace, ⟨placed, met⟩, reached.advance⟩
      · simp at walked

/-- Statements with a trace can be walked, if they start where they were measured. -/
theorem Trace.walk (trace : Trace set pass before.symbols before.counter (items.map (·.1)) changes)
    (met : Met items (starts before.counter changes))
    : ∃ after,
        Progress.walk set pass items before = (after, none)
        ∧ Reaches before changes after := by
  induction items generalizing before changes with
  | nil =>
      cases trace
      exact ⟨before, rfl, .refl before⟩
  | cons item items ih =>
      obtain ⟨statement, expected?⟩ := item
      cases trace with
      | @cons _ _ _ _ change changes carried rest =>
          have attempted := attempt_eq_ok_iff.mpr ⟨carried, met.1⟩
          let messages := (before.attempt set pass expected? statement).messages
          let next := (before.advance change).noting messages
          have stepped : before.step set pass expected? statement = (next, none) :=
            step_eq_none_iff.mpr ⟨change, messages, carried, met.1,
              by rw [← Logged.outcome_eq_ok.mp attempted], rfl⟩
          have remaining : Trace set pass next.symbols next.counter (items.map (·.1)) changes :=
            rest
          obtain ⟨after, walked, reached⟩ := ih remaining met.2
          refine ⟨after, ?_, reached.advance⟩
          rw [Progress.walk, stepped]
          exact walked

variable {table : Symbols} {front back : List Statement}

/-- The second pass declares nothing, by induction on its trace. -/
theorem Trace.declarations_assemble (trace : Trace set .assemble table counter statements changes)
    : declarations changes = [] := by
  generalize second : Pass.assemble = pass at trace
  induction trace with
  | nil => rfl
  | cons first rest ih =>
      subst second
      simpa [declarations, first.declaration?_assemble] using ih

/-- A second pass of two parts uses one table for both. -/
theorem Trace.split_assemble (trace : Trace set .assemble table counter (front ++ back) changes)
    : ∃ earlier later,
        changes = earlier ++ later
        ∧ Trace set .assemble table counter front earlier
        ∧ Trace set .assemble table (finish counter earlier) back later := by
  obtain ⟨earlier, later, split, before, after⟩ := trace.split
  rw [before.declarations_assemble, List.append_nil] at after
  exact ⟨earlier, later, split, before, after⟩

theorem Carried.row?_prescan {statement : Statement} {change : Change}
    (carried : Carried set .prescan symbols counter statement change)
    : change.row? = none := by
  cases carried with
  | move | emit | label | assign | stray => rfl

/-- The first pass keeps no rows. -/
theorem Trace.rows_prescan (trace : Trace set .prescan symbols counter statements changes)
    : rows changes = [] := by
  generalize first : Pass.prescan = pass at trace
  induction trace with
  | nil => rfl
  | cons carried rest ih =>
      subst first
      simpa [rows, carried.row?_prescan] using ih

/-- The second pass has a row for each statement that emits, and for no other. -/
theorem Carried.isSome_row?_assemble {statement : Statement} {change : Change}
    (carried : Carried set .assemble table counter statement change)
    : change.row?.isSome = statement.emits := by
  cases carried with
  | move | label | assign | stray => rfl
  | emit inside made fits => rw [(address_of_effect made).1]; rfl

theorem Trace.length_rows (trace : Trace set .assemble table counter statements changes)
    : (rows changes).length = statements.countP Statement.emits := by
  generalize second : Pass.assemble = pass at trace
  induction trace with
  | nil => rfl
  | @cons symbols counter statement statements change changes first rest ih =>
      subst second
      have one := first.isSome_row?_assemble
      cases found : change.row? with
      | none =>
          rw [found] at one
          simpa [rows, found, List.countP_cons, ← one] using ih
      | some row =>
          rw [found] at one
          simpa [rows, found, List.countP_cons, ← one] using ih

/-- A row that is emitted stands between those emitted before and behind it. -/
theorem rows_append_emitted (earlier later : List Change) (counter : Nat) (row : Row)
    : rows (earlier ++ Pass.assemble.emitted counter row :: later)
      = rows earlier ++ row :: rows later := by
  simp [rows, Pass.emitted]

/-- The row of a statement that emits stands behind the rows of the statements before it, and is
what the statement emits at the counter that these lead to.
-/
theorem Trace.row_of_emits {statement : Statement}
    (trace : Trace set .assemble table counter (front ++ statement :: back) changes)
    (emitting : statement.emits = true)
    : ∃ earlier row,
        Trace set .assemble table counter front earlier
        ∧ (rows changes)[front.countP Statement.emits]? = some row
        ∧ (statement.effect set .assemble table
            (UInt16.ofNat (finish counter earlier))).outcome = .ok (.emit row) := by
  obtain ⟨earlier, later, rfl, before, after⟩ := trace.split_assemble
  cases after with
  | @cons _ _ _ _ change later first rest =>
      cases first with
      | @emit _ row inside made fits =>
          refine ⟨earlier, row, before, ?_, made⟩
          rw [rows_append_emitted, ← before.length_rows,
            List.getElem?_append_right (Nat.le_refl _), Nat.sub_self]
          rfl
      | move | label | assign | stray => cases emitting

end Asm6510.Assembly
