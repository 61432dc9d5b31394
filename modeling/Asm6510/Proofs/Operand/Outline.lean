import Asm6510.Operand.Literal
import Mathlib.Data.List.Basic

/-! Literal operands told apart by their outline: the text with a zero for every digit.
A text fits a shape exactly when the two have the same outline, and no two shapes of the modes
share one, so a text has at most one shape.
-/

namespace Asm6510.Machine

open Text

/-- Reading a shape takes its two fixed texts and the digits between them off a text. -/
theorem Shape.read?_eq_some_iff {shape : Shape} {cs digits rest : List Char}
    : shape.read? cs = some (digits, rest)
      ↔ cs = shape.opening.toList ++ (digits ++ (shape.closing.toList ++ rest))
        ∧ digits.length = shape.digits
        ∧ digits.all Hex.isDigit = true := by
  constructor
  · intro found
    obtain ⟨body, opened, found⟩ := Option.bind_eq_some_iff.mp found
    have opened := List.isPrefixOf?_eq_some_iff_append_eq.mp opened
    dsimp only at found
    split at found
    · rename_i valid
      obtain ⟨after, closed, found⟩ := Option.bind_eq_some_iff.mp found
      obtain ⟨rfl, rfl⟩ : body.take shape.digits = digits ∧ after = rest := by
        simpa using found
      have closed := List.isPrefixOf?_eq_some_iff_append_eq.mp closed
      simp only [Bool.and_eq_true, decide_eq_true_eq] at valid
      refine ⟨?_, valid⟩
      rw [closed, List.take_append_drop, opened]
    · simp at found
  · intro parts
    obtain ⟨rfl, counted, valid⟩ := parts
    have opened : List.isPrefixOf? shape.opening.toList
        (shape.opening.toList ++ (digits ++ (shape.closing.toList ++ rest)))
        = some (digits ++ (shape.closing.toList ++ rest)) :=
      List.isPrefixOf?_eq_some_iff_append_eq.mpr rfl
    have closed : List.isPrefixOf? shape.closing.toList (shape.closing.toList ++ rest)
        = some rest :=
      List.isPrefixOf?_eq_some_iff_append_eq.mpr rfl
    simpa [Shape.read?, opened, closed, ← counted] using valid

/-- A text that fits a shape consists of the shape's fixed texts around its digits. -/
theorem Shape.fits_iff {shape : Shape} {text : String}
    : shape.fits text = true
      ↔ ∃ digits,
          text.toList = shape.opening.toList ++ (digits ++ shape.closing.toList)
          ∧ digits.length = shape.digits
          ∧ digits.all Hex.isDigit = true := by
  unfold Shape.fits
  constructor
  · intro fitting
    split at fitting
    · rename_i digits found
      exact ⟨digits, by simpa using Shape.read?_eq_some_iff.mp found⟩
    · simp at fitting
  · intro written
    obtain ⟨digits, spelt, valid⟩ := written
    have found : shape.read? text.toList = some (digits, []) :=
      Shape.read?_eq_some_iff.mpr ⟨by simpa using spelt, valid⟩
    simp [found]

/-- A character with a zero for every digit. -/
def blot (c : Char) : Char :=
  if Hex.isDigit c then '0' else c

/-- A text with a zero for every digit. -/
def outline (cs : List Char) : List Char :=
  cs.map blot

/-- The outline of the texts that fit a shape. -/
def Shape.outline (shape : Shape) : List Char :=
  shape.opening.toList ++ (List.replicate shape.digits '0' ++ shape.closing.toList)

/-- The fixed texts of a shape hold no digits. -/
def Shape.Plain (shape : Shape) : Prop :=
  (shape.opening.toList ++ shape.closing.toList).all (fun c => !Hex.isDigit c) = true

instance (shape : Shape) : Decidable shape.Plain :=
  inferInstanceAs (Decidable (_ = true))

/-- Only a digit is blotted out, since a zero is itself a digit. -/
theorem blot_eq_zero_iff {c : Char}
    : blot c = '0' ↔ Hex.isDigit c = true := by
  unfold blot
  constructor
  · intro zero
    by_cases digit : Hex.isDigit c = true
    · exact digit
    · rw [if_neg digit] at zero
      subst zero
      decide
  · intro digit
    rw [if_pos digit]

/-- Every other character is left as it is. -/
theorem blot_eq_iff {c d : Char} (plain : Hex.isDigit d = false)
    : blot c = d ↔ c = d := by
  unfold blot
  constructor
  · intro same
    by_cases digit : Hex.isDigit c = true
    · rw [if_pos digit] at same
      subst same
      exact absurd plain (by decide)
    · rwa [if_neg digit] at same
  · intro same
    rw [same, if_neg (by simp [plain])]

theorem outline_eq_of_plain {cs ds : List Char}
    (plain : ∀ d ∈ ds, Hex.isDigit d = false)
    : outline cs = ds ↔ cs = ds := by
  induction ds generalizing cs with
  | nil => simp [outline]
  | cons d ds ih =>
      cases cs with
      | nil => simp [outline]
      | cons c cs =>
          have rest : outline cs = ds ↔ cs = ds :=
            ih fun other member => plain other (by simp [member])
          have first : blot c = d ↔ c = d := blot_eq_iff (plain d (by simp))
          simp only [outline] at rest
          simp [outline, rest, first]

theorem outline_eq_replicate_iff {cs : List Char} {count : Nat}
    : outline cs = List.replicate count '0'
      ↔ cs.length = count ∧ cs.all Hex.isDigit = true := by
  simp only [outline, List.eq_replicate_iff, List.length_map, List.mem_map,
    forall_exists_index, and_imp, forall_apply_eq_imp_iff₂, blot_eq_zero_iff,
    List.all_eq_true]

/-- A text fits a shape exactly when it has the shape's outline. -/
theorem Shape.fits_iff_outline {shape : Shape} (plain : shape.Plain) {text : String}
    : shape.fits text = true ↔ Machine.outline text.toList = shape.outline := by
  have around : ∀ c ∈ shape.opening.toList ++ shape.closing.toList, Hex.isDigit c = false := by
    intro c member
    simpa using List.all_eq_true.mp plain c member
  have opening {cs} : Machine.outline cs = shape.opening.toList ↔ cs = shape.opening.toList :=
    outline_eq_of_plain fun c member => around c (by simp [member])
  have closing {cs} : Machine.outline cs = shape.closing.toList ↔ cs = shape.closing.toList :=
    outline_eq_of_plain fun c member => around c (by simp [member])
  rw [Shape.fits_iff]
  constructor
  · intro written
    obtain ⟨digits, spelt, valid⟩ := written
    have middle := outline_eq_replicate_iff.mpr valid
    have front := opening.mpr rfl
    have back := closing.mpr rfl
    simp only [Machine.outline] at middle front back
    simp [spelt, Machine.outline, Shape.outline, middle, front, back]
  · intro same
    -- Blotting keeps the length of each part, so the outline can be cut where the text is.
    obtain ⟨front, rest, split, first, last⟩ := List.map_eq_append_iff.mp same
    obtain ⟨digits, back, rfl, middle, last⟩ := List.map_eq_append_iff.mp last
    have first := opening.mp first
    have last := closing.mp last
    exact ⟨digits, by rw [split, first, last], outline_eq_replicate_iff.mp middle⟩

namespace Mode

/-- The shapes of the modes are written without digits around their number. -/
theorem shape?_plain {mode : Mode} {shape : Shape} (shaped : mode.shape? = some shape)
    : shape.Plain := by
  have all : ∀ mode ∈ Mode.all, ∀ shape ∈ mode.shape?, shape.Plain := by decide
  exact all mode (mem_all mode) shape shaped

/-- The number of a mode's shape starts after the only dollar sign. -/
theorem shape?_opening {mode : Mode} {shape : Shape} (shaped : mode.shape? = some shape)
    : shape.opening.toList.dropWhile (· != '$') = ['$'] := by
  have all : ∀ mode ∈ Mode.all, ∀ shape ∈ mode.shape?,
      shape.opening.toList.dropWhile (· != '$') = ['$'] := by decide
  exact all mode (mem_all mode) shape shaped

/-- Two digits make one byte, and the opcode is another. -/
theorem shape?_digits {mode : Mode} {shape : Shape} (shaped : mode.shape? = some shape)
    : shape.digits = 2 * (mode.length - 1)
      ∧ (mode.length = 2 ∨ mode.length = 3) := by
  have all : ∀ mode ∈ Mode.all, ∀ shape ∈ mode.shape?,
      shape.digits = 2 * (mode.length - 1)
      ∧ (mode.length = 2 ∨ mode.length = 3) := by decide
  exact all mode (mem_all mode) shape shaped

/-- Modes whose shapes have one outline have one shape. -/
theorem shape?_eq_of_outline {mode other : Mode} {shape shape' : Shape}
    (shaped : mode.shape? = some shape) (shaped' : other.shape? = some shape')
    (same : shape.outline = shape'.outline)
    : shape = shape' := by
  have all : ∀ mode ∈ Mode.all, ∀ other ∈ Mode.all,
      mode.shape?.map Shape.outline = other.shape?.map Shape.outline
      → mode.shape? = other.shape? := by decide
  have equal := all mode (mem_all mode) other (mem_all other) (by simp [shaped, shaped', same])
  simpa [shaped, shaped'] using equal

/-- A mode accepts the accumulator, or a text that fits its shape. -/
theorem accepts_cases {mode : Mode} {text : String} (accepted : mode.accepts text = true)
    : mode = .accumulator ∧ text = "A"
      ∨ ∃ shape, mode.shape? = some shape ∧ shape.fits text = true := by
  cases mode <;> simp_all [accepts, shape?]

/-- The name of the accumulator fits no shape. -/
theorem accepts_name_of_shaped {mode : Mode} {shape : Shape} (shaped : mode.shape? = some shape)
    : mode.accepts "A" = false := by
  have all : ∀ mode ∈ Mode.all, mode.shape?.isSome = true → mode.accepts "A" = false := by decide
  exact all mode (mem_all mode) (by rw [shaped]; rfl)

/-- Modes that accept one text have one shape; only the accumulator has none. -/
theorem shape?_eq_of_accepts {mode other : Mode} {text : String}
    (first : mode.accepts text = true) (second : other.accepts text = true)
    : mode.shape? = other.shape? := by
  rcases accepts_cases first with ⟨rfl, rfl⟩ | ⟨shape, shaped, fitting⟩
  · rcases accepts_cases second with ⟨rfl, -⟩ | ⟨shape, shaped, -⟩
    · rfl
    · simp [accepts_name_of_shaped shaped] at second
  · rcases accepts_cases second with ⟨rfl, rfl⟩ | ⟨shape', shaped', fitting'⟩
    · simp [accepts_name_of_shaped shaped] at first
    · have outlined := (Shape.fits_iff_outline (shape?_plain shaped)).mp fitting
      have outlined' := (Shape.fits_iff_outline (shape?_plain shaped')).mp fitting'
      rw [shaped, shaped', shape?_eq_of_outline shaped shaped' (outlined.symm.trans outlined')]

/-- The operands that a mode with a shape accepts are those of the modes with the same shape. -/
theorem accepts_iff_shape? {mode other : Mode} {text : String}
    (shaped : other.shape?.isSome = true) (accepted : other.accepts text = true)
    : mode.accepts text = true ↔ mode.shape? = other.shape? := by
  constructor
  · intro also
    exact shape?_eq_of_accepts also accepted
  · intro same
    rcases accepts_cases accepted with ⟨rfl, -⟩ | ⟨shape, found, fitting⟩
    · cases shaped
    · rw [found] at same
      cases mode <;> simp_all [accepts, shape?]

end Mode

end Asm6510.Machine
