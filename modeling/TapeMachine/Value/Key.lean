import TapeMachine.Value

/-!
Values as keys of mappings: which of them can be keys, when two are the same key, and their order.
-/
namespace TapeMachine.Value

/-- The numeric value of truth values and numbers, as a quotient. -/
inductive Size where
  | negativeInfinity
  | ratio (num : Int) (den : Nat)
  | positiveInfinity
  | undefined

def size? : Value → Option Size
  | .bool b => some (.ratio b.toNat 1)
  | .int n => some (.ratio n 1)
  | .float (.infinite negative) => some (if negative then .negativeInfinity else .positiveInfinity)
  | .float .nan => some .undefined
  | .float x => x.toRatio?.map fun (n, d) => .ratio n d
  | _ => none

def Size.rank : Size → Int
  | negativeInfinity => -1
  | ratio .. => 0
  | positiveInfinity => 1
  | undefined => 2

def Size.order : Size → Size → Ordering
  | ratio n d, ratio n' d' => compare (n * d') (n' * d)
  | x, y => compare x.rank y.rank

/-- The order of two keys. Only keys of one kind have one; numbers and truth values are of one kind, and
so are the moments with a known offset. -/
def keyOrder? (a b : Value) : Option Ordering :=
  match a.size?, b.size? with
  | some x, some y => some (x.order y)
  | _, _ =>
    match a, b with
    | .text s, .text t => some (compare (s.map (·.val)) (t.map (·.val)))
    | .bytes s, .bytes t => some (compare (s.map (·.toNat)) (t.map (·.toNat)))
    | .date d, .date e => some (compare d.dayNumber e.dayNumber)
    | .moment m, .moment n =>
      if m.offset.isSome = n.offset.isSome then some (compare m.instant n.instant) else none
    | _, _ => none

def sameKey (a b : Value) : Bool :=
  match a, b with
  | .null, .null => true
  | _, _ => keyOrder? a b == some .eq

def canBeKey : Value → Bool
  | .list _ | .mapping _ | .set _ | .sameList | .sameMapping => false
  | _ => true

/-- Adds an entry. A key that is there keeps its place and gets the new value. -/
def insertEntry (k v : Value) : List (Value × Value) → List (Value × Value)
  | [] => [(k, v)]
  | (k', v') :: rest => if sameKey k k' then (k', v) :: rest else (k', v') :: insertEntry k v rest

/-- A mapping from entries of which those with the same key become one. -/
def ofEntries (entries : List (Value × Value)) : Value :=
  .mapping (entries.foldl (fun acc (k, v) => insertEntry k v acc) [])

/-- Sorts keys, if every two of them have an order. -/
def sortKeys? (keys : List Value) : Option (List Value) :=
  let comparable (a b : Value) : Bool := (keyOrder? a b).isSome
  let before (a b : Value) : Bool := keyOrder? a b != some .gt
  match keys with
  | [k] => some [k]
  | keys =>
    if keys.all fun a => keys.all (comparable a) then some (keys.mergeSort before) else none

end TapeMachine.Value
