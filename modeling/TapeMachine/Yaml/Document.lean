import TapeMachine.Value.Key
import TapeMachine.Yaml.Node
import TapeMachine.Yaml.Scalar

/-!
The value of a document. If several nodes have no value, the fault of the outermost is reported, and of
equally deep ones the first.
-/
namespace TapeMachine.Yaml

/-- A fault and how many collections are around it. -/
structure Misfit where
  depth : Nat
  error : Error

abbrev Reading := Except Misfit

namespace Reading

def fail {α : Type} (e : Error) : Reading α := .error ⟨0, e⟩

/-- What is inside one more collection. -/
def inside {α : Type} (r : Reading α) : Reading α := r.mapError fun m => { m with depth := m.depth + 1 }

def both {α β γ : Type} (f : α → β → γ) : Reading α → Reading β → Reading γ
  | .ok a, .ok b => .ok (f a b)
  | .ok _, .error e | .error e, .ok _ => .error e
  | .error e, .error e' => .error (if e'.depth < e.depth then e' else e)

/-- A value that has to be a key. -/
def asKey (r : Reading Value) : Reading Value :=
  match r with
  | .ok v => if v.canBeKey then .ok v else fail .malformed
  | .error e => if e.depth = 0 then .error e else fail .malformed

end Reading

open Reading

namespace Node

mutual

/-- The text of a scalar, or of the entry with the key `=` of a mapping. -/
def scalarText? : Node → Option Text
  | .scalar _ t => some t
  | .mapping _ _ entries => defaultText? entries
  | _ => none

def defaultText? : List (Node × Node) → Option Text
  | [] => none
  | (k, v) :: rest => if k.tag = .value then scalarText? v else defaultText? rest

end

/-- The value of a scalar or of something that is read like one. -/
def scalarValue (tag : Tag) : Option Text → Reading Value
  | none => fail .malformed
  | some t =>
    match Scalar.value tag t with
    | .ok v => .ok v
    | .error e => fail e

mutual

def value : Node → Reading Value
  | .scalar tag t =>
    match tag with
    | .list | .mapping | .set | .pairs => inside (fail .malformed)
    | tag => scalarValue tag (some t)
  | .sequence tag items =>
    match tag with
    | .list => inside ((values items).map .list)
    | .pairs => inside ((pairs items).map .list)
    | .mapping | .set => inside (fail .malformed)
    | _ => fail .malformed
  | .mapping tag merging entries =>
    match tag with
    | .mapping =>
      if merging = .impossible then inside (fail .malformed)
      else inside ((entryValues entries).map Value.ofEntries)
    | .set =>
      if merging = .impossible then inside (fail .malformed)
      else inside ((entryValues entries).map fun es =>
        match Value.ofEntries es with
        | .mapping es => .set (es.map (·.1))
        | v => v)
    | .list | .pairs => inside (fail .malformed)
    | .timestamp => fail (if (defaultText? entries).isSome then .timestampMapping else .malformed)
    | tag => scalarValue tag (defaultText? entries)
  | .enclosing tag =>
    match tag with
    | .mapping => .ok .sameMapping
    | .list | .pairs => .ok .sameList
    | _ => fail .malformed

def values : List Node → Reading (List Value)
  | [] => .ok []
  | n :: rest => both List.cons (value n) (values rest)

/-- The entries of a mapping. A key `=` is a text. -/
def entryValues : List (Node × Node) → Reading (List (Value × Value))
  | [] => .ok []
  | (k, v) :: rest =>
    let key := if k.tag = .value then scalarValue .text (scalarText? k) else value k
    both (fun (k, v) es => (k, v) :: es) (both Prod.mk (asKey key) (value v)) (entryValues rest)

/-- The items of a list of pairs, each of which is a mapping with one entry. -/
def pairs : List Node → Reading (List Value)
  | [] => .ok []
  | n :: rest => both List.cons (pairValue n) (pairs rest)

def pairValue : Node → Reading Value
  | .mapping _ .without [(k, v)] => both Value.pair (value k) (value v)
  | _ => fail .malformed

end

end Node

/-- The value of the one document in a text; a text without one is null. -/
def parse (text : List Char) : Except Error Value := do
  match ← Node.parse text with
  | none => return .null
  | some n =>
    match n.value with
    | .ok v => return v
    | .error m => throw m.error

end TapeMachine.Yaml
