import TapeMachine.Text.CodePoint

/-!
Surrogates in texts that are to be written as UTF-8, which has no place for them.
-/
namespace TapeMachine

/-- A run of surrogates in a text: the first of them, its position, and their number. -/
structure SurrogateError where
  first : CodePoint
  position : Nat
  length : Nat
  deriving DecidableEq

def SurrogateError.message (e : SurrogateError) : String :=
  "'utf-8' codec can't encode " ++
    (if e.length = 1 then s!"character '\\u" ++ hexText 4 e.first.val ++ s!"' in position {e.position}"
     else s!"characters in position {e.position}-" ++ toString (e.position + e.length - 1)) ++
    ": surrogates not allowed"

/-- The first run of surrogates in a text, where the text starts at `position`. -/
def Text.firstSurrogates (position : Nat) : Text → Option SurrogateError
  | [] => none
  | c :: rest =>
    if c.isSurrogate then
      some ⟨c, position, 1 + (rest.takeWhile CodePoint.isSurrogate).length⟩
    else firstSurrogates (position + 1) rest

theorem Text.firstSurrogates_eq_none {t : Text} (h : ∀ c ∈ t, c.isSurrogate = false)
    (position : Nat) : t.firstSurrogates position = none := by
  induction t generalizing position with
  | nil => rfl
  | cons c t ih => simp [firstSurrogates, h c, ih fun d hd => h d (by simp [hd])]

end TapeMachine
