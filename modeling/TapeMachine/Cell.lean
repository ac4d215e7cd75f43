/-!
Cells hold signed integers of a fixed width. A value outside the range of the width is either
brought back into it modulo the number of values, or refused.
-/
namespace TapeMachine

/-- What happens to a value that does not fit. -/
inductive OverflowMode where
  | wrap | trap
  deriving DecidableEq, Repr

namespace OverflowMode

def name : OverflowMode → String
  | wrap => "wrap"
  | trap => "trap"

def all : List OverflowMode := [wrap, trap]

def ofName? : String → Option OverflowMode
  | "wrap" => some wrap
  | "trap" => some trap
  | _ => none

@[simp] theorem ofName?_name (m : OverflowMode) : ofName? m.name = some m := by cases m <;> rfl

end OverflowMode

structure CellFormat where
  bits : Nat
  overflow : OverflowMode
  bits_pos : 0 < bits
  deriving DecidableEq

namespace CellFormat

/-- How many values of a cell are negative. -/
def half (f : CellFormat) : Nat := Nat.pow 2 (f.bits - 1)

def low (f : CellFormat) : Int := -f.half

def high (f : CellFormat) : Int := f.half - 1

/-- How many values a cell has. -/
def span (f : CellFormat) : Int := 2 * f.half

def Fits (f : CellFormat) (v : Int) : Prop := f.low ≤ v ∧ v ≤ f.high

instance (f : CellFormat) (v : Int) : Decidable (f.Fits v) :=
  inferInstanceAs (Decidable (_ ∧ _))

/-- The value of the range that is congruent to `v` modulo the number of values. -/
def wrapped (f : CellFormat) (v : Int) : Int := (v - f.low) % f.span + f.low

/-- What a cell holds after `v` is written to it, or nothing if the write is refused. -/
def fit? (f : CellFormat) (v : Int) : Option Int :=
  if f.Fits v then some v
  else
    match f.overflow with
    | .wrap => some (f.wrapped v)
    | .trap => none

theorem half_pos (f : CellFormat) : 0 < f.half := Nat.pow_pos (by decide)

theorem fits_wrapped (f : CellFormat) (v : Int) : f.Fits (f.wrapped v) := by
  have hh := f.half_pos
  have h₀ : 0 ≤ (v - f.low) % f.span := Int.emod_nonneg _ (by unfold span; omega)
  have h₁ : (v - f.low) % f.span < f.span := Int.emod_lt_of_pos _ (by unfold span; omega)
  unfold Fits wrapped
  unfold low high span at *
  omega

theorem wrapped_of_fits {f : CellFormat} {v : Int} (h : f.Fits v) : f.wrapped v = v := by
  have hv : (v - f.low) % f.span = v - f.low := by
    apply Int.emod_eq_of_lt
    · have := h.1
      omega
    · have := h.2
      unfold low high span at *
      omega
  unfold wrapped
  omega

/-- A cell never holds a value that does not fit. -/
theorem fits_of_fit? {f : CellFormat} {v w : Int} (h : f.fit? v = some w) : f.Fits w := by
  unfold fit? at h
  split at h
  · next hv => exact Option.some.inj h ▸ hv
  · split at h
    · exact Option.some.inj h ▸ f.fits_wrapped v
    · exact absurd h (by simp)

/-- A write is refused only in a format that refuses, and only if the value does not fit. -/
theorem fit?_eq_none_iff {f : CellFormat} {v : Int} :
    f.fit? v = none ↔ f.overflow = .trap ∧ ¬ f.Fits v := by
  unfold fit?
  by_cases hv : f.Fits v
  · simp [hv]
  · cases hf : f.overflow <;> simp [hv]

end CellFormat

end TapeMachine
