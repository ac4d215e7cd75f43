import TapeMachine.Source

/-!
Readers hand out a text one code point at a time: the pieces of a list one after another, or what a
stream holds from its position on. A reader that has found the end does not look again. To a machine, a
reader is a source (`Reader.read_source`).
-/
namespace TapeMachine

inductive Feed where
  /-- Pieces of text, of which the first may have been begun. -/
  | pieces (rest : List Text)
  | stream (text : Text) (position : Nat)
  deriving DecidableEq

namespace Feed

/-- The next code point, if there is one, and the feed after it. -/
def next? : Feed → Option (CodePoint × Feed)
  | pieces rest => (Source.take? rest).map fun (c, rest) => (c, pieces rest)
  | stream text position => text[position]?.map fun c => (c, stream text (position + 1))

def chunks : Feed → List Text
  | pieces rest => rest
  | stream text position => [text.drop position]

theorem take?_chunks (f : Feed) :
    Source.take? f.chunks = f.next?.map fun (c, after) => (c, after.chunks) := by
  cases f with
  | pieces rest =>
    simp only [chunks, next?]
    cases Source.take? rest <;> rfl
  | stream text position =>
    simp only [chunks, next?]
    cases h : text[position]? with
    | none =>
      rw [List.drop_eq_nil_of_le (List.getElem?_eq_none_iff.1 h)]
      rfl
    | some c =>
      obtain ⟨hlt, rfl⟩ := List.getElem?_eq_some_iff.1 h
      rw [List.drop_eq_getElem_cons hlt]
      rfl

end Feed

structure Reader where
  feed : Feed
  exhausted : Bool := false
  deriving DecidableEq

namespace Reader

def ofPieces (pieces : List Text) : Reader := { feed := .pieces pieces }

/-- A reader of a stream that holds a text, from its beginning. -/
def ofStream (text : Text) : Reader := { feed := .stream text 0 }

/-- The next code point, or none at the end; and the reader after it. -/
def read (r : Reader) : Option CodePoint × Reader :=
  if r.exhausted then (none, r)
  else
    match r.feed.next? with
    | some (c, feed) => (some c, { r with feed })
    | none => (none, { r with exhausted := true })

def answers : Nat → Reader → List (Option CodePoint)
  | 0, _ => []
  | n + 1, r => r.read.1 :: answers n r.read.2

/-- What a reader has not handed out yet, as a source. -/
def source (r : Reader) : Source := { chunks := if r.exhausted then [] else r.feed.chunks }

@[simp] theorem source_ofPieces (pieces : List Text) :
    (ofPieces pieces).source = { chunks := pieces } := rfl

@[simp] theorem source_ofStream (text : Text) : (ofStream text).source = Source.ofText text := rfl

/-- The source of a reader reads as the reader does. -/
theorem read_source (r : Reader) : r.source.read = (.ok r.read.1, r.read.2.source) := by
  obtain ⟨feed, exhausted⟩ := r
  cases exhausted with
  | true => rfl
  | false =>
    simp only [Source.read, source, Bool.false_eq_true, ↓reduceIte, Feed.take?_chunks, read]
    cases feed.next? <;> rfl

end Reader

end TapeMachine
