import Asm6510.Proofs.Assembly.Passes
import Mathlib.Data.List.Nodup

/-! The meanings that statements give to names. They can be read off the statements and the
counters at which they start, and the first pass declares exactly these, each name once.
-/

namespace Asm6510.Assembly

open Machine (InstructionSet)
open Progress (Change)

/-- The meaning that a statement gives to a name when it stands at a counter. -/
def Statement.binding? (counter : Nat) : Statement → Option (String × Symbol)
  | label _ name => some (name, .label (UInt16.ofNat counter))
  | assign _ name (some value) => some (name, .assigned value.text)
  | _ => none

/-- The meanings given by statements that start at these counters. -/
def bindings : List Statement → List Nat → List (String × Symbol)
  | statement :: statements, start :: starts =>
      (statement.binding? start).toList ++ bindings statements starts
  | _, _ => []

/-- A declared name with its meaning. -/
def Declaration.meaning (declaration : Declaration) : String × Symbol :=
  (declaration.name, declaration.symbol)

/-- The names of a table with their meanings. -/
def Symbols.meanings (symbols : Symbols) : List (String × Symbol) :=
  symbols.declarations.map Declaration.meaning

/-- No name is declared twice. -/
def Distinct (meanings : List (String × Symbol)) : Prop :=
  (meanings.map Prod.fst).Nodup

variable {set : InstructionSet} {pass : Pass} {symbols table known : Symbols}
  {counter measured emitted : Nat} {statement : Statement} {statements : List Statement}
  {change : Change} {changes firsts seconds : List Change} {name : String} {symbol : Symbol}

/-- A name is unknown exactly when no declaration has it. -/
theorem get?_eq_none_iff
    : symbols.get? name = none ↔ name ∉ symbols.meanings.map Prod.fst := by
  simp [Symbols.get?, Symbols.find?, Symbols.meanings, Declaration.meaning]

/-- A known name has one of the meanings declared for it. -/
theorem mem_meanings_of_get? (known : symbols.get? name = some symbol)
    : (name, symbol) ∈ symbols.meanings := by
  obtain ⟨declaration, found, rfl⟩ := Option.map_eq_some_iff.mp known
  have member := List.mem_of_find?_eq_some found
  have same : declaration.name = name := by simpa using List.find?_some found
  exact List.mem_map.mpr ⟨declaration, member, by rw [Declaration.meaning, same]⟩

/-- In a table of distinct names, looking a name up finds its only meaning. -/
theorem get?_eq_some_iff (distinct : Distinct symbols.meanings)
    : symbols.get? name = some symbol ↔ (name, symbol) ∈ symbols.meanings := by
  constructor
  · exact mem_meanings_of_get?
  · intro member
    cases found : symbols.get? name with
    | none =>
        have absent := get?_eq_none_iff.mp found
        exact absurd (List.mem_map.mpr ⟨(name, symbol), member, rfl⟩) absent
    | some other =>
        have same := List.inj_on_of_nodup_map distinct (mem_meanings_of_get? found) member rfl
        rw [(Prod.mk.inj same).2]

/-- A statement that emits gives no name a meaning. -/
theorem Statement.binding?_of_emits (emitting : statement.emits = true)
    : statement.binding? counter = none := by
  cases statement <;> simp_all [emits, binding?]

/-- The first pass declares the meaning that the statement has at its counter. -/
theorem Carried.meaning_prescan
    (carried : Carried set .prescan symbols counter statement change)
    : change.declaration?.map Declaration.meaning = statement.binding? counter := by
  cases carried with
  | move | stray | label | assign => rfl
  | emit inside made fits =>
      rw [Statement.binding?_of_emits (address_of_effect made).1]
      rfl

/-- The names known after a change are those before it and the one it declares. -/
theorem meanings_grow
    : (symbols.grow change).meanings
      = symbols.meanings ++ (change.declaration?.map Declaration.meaning).toList := by
  cases found : change.declaration? <;>
    simp [Symbols.grow, Symbols.meanings, Symbols.push, found]

theorem meanings_cons
    : (Symbols.meanings ⟨declarations (change :: changes)⟩)
      = (change.declaration?.map Declaration.meaning).toList
        ++ Symbols.meanings ⟨declarations changes⟩ := by
  cases found : change.declaration? <;> simp [Symbols.meanings, declarations, found]

/-- What the first pass declares can be read off the statements and their starts. -/
theorem Trace.bindings_prescan (trace : Trace set .prescan symbols counter statements changes)
    : Symbols.meanings ⟨declarations changes⟩ = bindings statements (starts counter changes) := by
  generalize first : Pass.prescan = pass at trace
  induction trace with
  | nil => rfl
  | cons carried rest ih =>
      subst first
      rw [meanings_cons, carried.meaning_prescan, ih, starts, bindings]

/-- A statement that gives a name a meaning gives it the same one at both counters. -/
theorem Statement.binding?_aligned (aligned : statement.isAnchored = true → measured = emitted)
    : statement.binding? measured = statement.binding? emitted := by
  cases statement with
  | label token name => rw [aligned rfl]
  | assign token name value? => cases value? <;> rfl
  | origin | data | string | implied | operate | stray => rfl

/-- Both passes give the names the same meanings.
Witness: a label stands at one counter in both, and a variable does not depend on it.
-/
theorem Passes.bindings_eq
    (passes : Passes set table known measured emitted statements firsts seconds)
    : bindings statements (starts measured firsts)
      = bindings statements (starts emitted seconds) := by
  induction passes with
  | nil => rfl
  | cons prescan assemble aligned rest ih =>
      rw [starts, starts, bindings, bindings, Statement.binding?_aligned aligned, ih]

/-- A first pass that succeeds declares no name twice, nor one that was known before. -/
theorem Trace.distinct_prescan (trace : Trace set .prescan symbols counter statements changes)
    (distinct : Distinct symbols.meanings)
    : Distinct (symbols.meanings ++ Symbols.meanings ⟨declarations changes⟩) := by
  generalize first : Pass.prescan = pass at trace
  induction trace with
  | nil => simpa [declarations, Symbols.meanings] using distinct
  | @cons symbols counter statement statements change changes carried rest ih =>
      subst first
      rw [meanings_cons, ← List.append_assoc, ← meanings_grow]
      refine ih ?_
      cases found : change.declaration? with
      | none => simpa [meanings_grow, found] using distinct
      | some declaration =>
          have fresh : symbols.get? declaration.name = none := by
            cases carried with
            | move | emit | stray => cases found
            | label inside fresh | assign fresh =>
                cases found
                exact fresh rfl
          simp only [meanings_grow, found, Distinct, List.map_append]
          exact List.nodup_append.mpr ⟨distinct, by simp [Declaration.meaning],
            fun first member second last same =>
              get?_eq_none_iff.mp fresh (by simp_all [Declaration.meaning])⟩

/-- A meaning comes from a statement and the counter at which it starts. -/
theorem exists_of_mem_bindings {meaning : String × Symbol} {starts : List Nat}
    (member : meaning ∈ bindings statements starts)
    : ∃ front statement back start,
        statements = front ++ statement :: back
        ∧ starts[front.length]? = some start
        ∧ statement.binding? start = some meaning := by
  induction statements generalizing starts with
  | nil => simp [bindings] at member
  | cons statement statements ih =>
      cases starts with
      | nil => simp [bindings] at member
      | cons start starts =>
          rcases List.mem_append.mp member with here | later
          · exact ⟨[], statement, statements, start, rfl, rfl, by simpa using here⟩
          · obtain ⟨front, other, back, place, rfl, placed, bound⟩ := ih later
            exact ⟨statement :: front, other, back, place, rfl, by simpa using placed, bound⟩

/-- The statements that give a name a meaning: a label its counter, an assignment a text. -/
theorem binding?_eq_some (bound : statement.binding? counter = some (name, symbol))
    : (∃ token, statement = .label token name ∧ symbol = .label (UInt16.ofNat counter))
      ∨ ∃ token value,
          statement = .assign token name (some value) ∧ symbol = .assigned value.text := by
  cases statement with
  | label token other =>
      obtain ⟨rfl, rfl⟩ := Prod.mk.inj (Option.some.inj bound)
      exact Or.inl ⟨token, rfl, rfl⟩
  | assign token other value? =>
      cases value? with
      | none => cases bound
      | some value =>
          obtain ⟨rfl, rfl⟩ := Prod.mk.inj (Option.some.inj bound)
          exact Or.inr ⟨token, value, rfl, rfl⟩
  | origin | data | string | implied | operate | stray => cases bound

/-- A meaning comes from a label or from an assignment among the statements. -/
theorem mem_bindings {starts : List Nat} (member : (name, symbol) ∈ bindings statements starts)
    : (∃ token address, .label token name ∈ statements ∧ symbol = .label address)
      ∨ ∃ token value,
          .assign token name (some value) ∈ statements ∧ symbol = .assigned value.text := by
  obtain ⟨front, statement, back, start, rfl, -, bound⟩ := exists_of_mem_bindings member
  rcases binding?_eq_some bound with ⟨token, rfl, rfl⟩ | ⟨token, value, rfl, rfl⟩
  · exact Or.inl ⟨token, _, by simp, rfl⟩
  · exact Or.inr ⟨token, value, by simp, rfl⟩

/-- What a run declares can be read off its second pass, and each name is declared once. -/
theorem Passes.declared (passes : Passes set ⟨declarations firsts⟩ Symbols.empty measured emitted
      statements firsts seconds)
    : Symbols.meanings ⟨declarations firsts⟩ = bindings statements (starts emitted seconds)
      ∧ Distinct (Symbols.meanings ⟨declarations firsts⟩) := by
  refine ⟨passes.prescan.bindings_prescan.trans passes.bindings_eq, ?_⟩
  have all := passes.prescan.distinct_prescan List.nodup_nil
  simpa [Symbols.meanings, Symbols.empty] using all

end Asm6510.Assembly
