/-!
Where a run writes to. A sink collects what is written; it may count a flush after every write, as
a terminal would need it, and keep the written pieces apart.
-/
namespace TapeMachine

structure Sink where
  flushing : Bool := false
  recording : Bool := false
  content : String := ""
  flushes : Nat := 0
  pieces : Array String := #[]
  deriving DecidableEq

namespace Sink

def buffer : Sink := {}

def stream (flushing : Bool) : Sink := { flushing }

def recorder (flushing : Bool) : Sink := { flushing, recording := true }

def write (s : Sink) (text : String) : Sink :=
  { s with
    content := s.content ++ text
    flushes := if s.flushing then s.flushes + 1 else s.flushes
    pieces := if s.recording then s.pieces.push text else s.pieces }

/-- Writes a text one character at a time, as a run does. -/
def writeChars (s : Sink) (text : String) : Sink :=
  text.toList.foldl (fun s c => s.write (String.singleton c)) s

@[simp] theorem content_write (s : Sink) (text : String) :
    (s.write text).content = s.content ++ text := rfl

theorem pieces_write {s : Sink} (h : s.recording = true) (text : String) :
    (s.write text).pieces = s.pieces.push text := if_pos h

/-- A text written in characters is that text, whatever the sink does besides. -/
theorem content_writeChars (s : Sink) (text : String) :
    (s.writeChars text).content = s.content ++ text := by
  have hfold : ∀ (cs : List Char) (s : Sink),
      (cs.foldl (fun s c => s.write (String.singleton c)) s).content = s.content ++ String.ofList cs := by
    intro cs
    induction cs with
    | nil => simp
    | cons c cs ih =>
      intro s
      rw [List.foldl_cons, ih, content_write]
      simp [← String.toList_inj]
  rw [writeChars, hfold, String.ofList_toList]

/-- The pieces that a sink has kept, put together, are what was written. -/
theorem join_pieces_writeChars {s : Sink} (h : s.recording = true) (text : String) :
    String.join (s.writeChars text).pieces.toList = String.join s.pieces.toList ++ text := by
  have hfold : ∀ (cs : List Char) (s : Sink), s.recording = true →
      String.join (cs.foldl (fun s c => s.write (String.singleton c)) s).pieces.toList =
        String.join s.pieces.toList ++ String.ofList cs := by
    intro cs
    induction cs with
    | nil => simp
    | cons c cs ih =>
      intro s hs
      rw [List.foldl_cons, ih (s.write _) hs, pieces_write hs]
      simp [← String.toList_inj]
  rw [writeChars, hfold _ _ h, String.ofList_toList]

end Sink

end TapeMachine
