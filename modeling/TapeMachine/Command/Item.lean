import TapeMachine.Text.Digit

/-!
The arguments of a command line one by one: which of them are options, and what they are attached to.
An option may be shortened to any beginning that no other option has. A table lists the names of
options, each with its key.
-/
namespace TapeMachine

/-- What is attached to an option in the same argument. -/
inductive Attached where
  | nothing
  | value (t : Text)
  /-- What follows an option of one letter. -/
  | letters (t : Text)
  deriving DecidableEq

inductive Item (κ : Type) where
  | plain (t : Text)
  /-- Two dashes, after which there are no options. -/
  | dashes
  | option (key : κ) (attached : Attached)
  /-- What looks like an option and is none. -/
  | unknown (t : Text)

/-- An option that could be short for several. -/
structure Ambiguity where
  option : Text
  candidates : List String
  deriving DecidableEq

namespace Item

variable {κ : Type}

/-- A negative number, whole or with a decimal point, and perhaps a line feed. -/
def isNegativeNumber (t : Text) : Bool :=
  let body := if t.getLast?.any (·.is '\n') then t.dropLast else t
  let isDigits (ds : Text) : Bool := !ds.isEmpty && ds.all fun c => c.digit?.isSome
  match body with
  | [] => false
  | c :: rest =>
    c.is '-' &&
      match Text.splitAt? (·.is '.') rest with
      | none => isDigits rest
      | some (whole, _, fraction) => (whole.isEmpty || isDigits whole) && isDigits fraction

/-- The options of the table that an argument may stand for, with what is attached to them. -/
def candidates (table : List (String × κ)) (t : Text) : List (String × κ × Attached) :=
  if (Text.ofString "--").isPrefixOf t then
    let (start, attached) :=
      match t.splitAt? (·.is '=') with
      | some (start, _, v) => (start, Attached.value v)
      | none => (t, .nothing)
    (table.filter fun (name, _) => start.isPrefixOf (Text.ofString name)).map
      fun (name, key) => (name, key, attached)
  else
    table.filterMap fun (name, key) =>
      if Text.ofString name = t.take 2 then some (name, key, .letters (t.drop 2))
      else if t.isPrefixOf (Text.ofString name) then some (name, key, .nothing)
      else none

def lookup? (table : List (String × κ)) (t : Text) : Option κ :=
  (table.find? fun (name, _) => Text.ofString name = t).map (·.2)

def ofText (table : List (String × κ)) (t : Text) : Except Ambiguity (Item κ) :=
  if !(t.head?.any (·.is '-')) then .ok (.plain t)
  else
    match lookup? table t with
    | some key => .ok (.option key .nothing)
    | none =>
      if t.length = 1 then .ok (.plain t)
      else
        let exact : Option (Item κ) := do
          let (name, _, v) ← t.splitAt? (·.is '=')
          return .option (← lookup? table name) (.value v)
        match exact with
        | some item => .ok item
        | none =>
          match candidates table t with
          | [(_, key, attached)] => .ok (.option key attached)
          | [] =>
            if isNegativeNumber t || t.any (·.is ' ') then .ok (.plain t) else .ok (.unknown t)
          | many => .error ⟨t, many.map (·.1)⟩

def ofTexts (table : List (String × κ)) : List Text → Except Ambiguity (List (Item κ))
  | [] => .ok []
  | t :: rest =>
    if t = Text.ofString "--" then .ok (.dashes :: rest.map .plain)
    else do
      let item ← ofText table t
      let items ← ofTexts table rest
      return item :: items

end Item

inductive Event (κ : Type) where
  | positional (t : Text)
  | flag (key : κ)
  | value (key : κ) (t : Text)
  | valueMissing (key : κ)
  | valueIgnored (key : κ) (t : Text)

namespace Event

variable {κ : Type}

/-- The value that is attached to a letter which takes none, if there is one: further letters may follow
it. -/
def attachedValue? (letter : Char) : Text → Option Text
  | [] => none
  | c :: rest =>
    if c.is '-' then some (c :: rest)
    else if c.is letter then
      match rest with
      | d :: more => if d.is '=' then some more else attachedValue? letter (d :: more)
      | [] => none
    else none

def ofFlag (key : κ) : Attached → Event κ
  | .nothing => .flag key
  | .value t => .valueIgnored key t
  | .letters t =>
    match attachedValue? 'h' t with
    | some v => .valueIgnored key v
    | none => .flag key

/-- What the items ask for, and the arguments that are left over. `pending` says that the one
positional argument is still to come; two dashes next to it are dropped. -/
def ofItems (takesValue : κ → Bool) : (pending : Bool) → List (Item κ) → List (Event κ) × List Text
  | _, [] => ([], [])
  | true, .plain t :: .dashes :: rest =>
    let (events, extras) := ofItems takesValue false rest
    (.positional t :: events, extras)
  | true, .dashes :: .plain t :: rest =>
    let (events, extras) := ofItems takesValue false rest
    (.positional t :: events, extras)
  | true, .plain t :: rest =>
    let (events, extras) := ofItems takesValue false rest
    (.positional t :: events, extras)
  | false, .plain t :: rest =>
    let (events, extras) := ofItems takesValue false rest
    (events, t :: extras)
  | pending, .dashes :: rest =>
    let (events, extras) := ofItems takesValue pending rest
    (events, Text.ofString "--" :: extras)
  | pending, .unknown t :: rest =>
    let (events, extras) := ofItems takesValue pending rest
    (events, t :: extras)
  | pending, .option key .nothing :: .plain t :: rest =>
    if takesValue key then
      let (events, extras) := ofItems takesValue pending rest
      (.value key t :: events, extras)
    else
      let (events, extras) := ofItems takesValue pending (.plain t :: rest)
      (.flag key :: events, extras)
  | pending, .option key attached :: rest =>
    let (events, extras) := ofItems takesValue pending rest
    if takesValue key then
      match attached with
      | .nothing => ([.valueMissing key], [])
      | .value t | .letters t => (.value key t :: events, extras)
    else (ofFlag key attached :: events, extras)

end Event

end TapeMachine
