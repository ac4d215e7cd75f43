import TapeMachine.Text.Lower

/-!
Paths of files. A path is kept without empty parts and without the parts that stand for the directory
they are in; two dots are kept, since what they mean depends on the files.
-/
namespace TapeMachine

structure Path where
  /-- The slashes at the beginning: none, one or two. -/
  slashes : Nat := 0
  parts : List Text := []
  deriving DecidableEq

namespace Path

def split : Text → List Text
  | [] => [[]]
  | c :: rest =>
    let parts := split rest
    if c.is '/' then [] :: parts else (c :: parts.headD []) :: parts.tail

def ofText (t : Text) : Path :=
  let slashes := (t.takeWhile (·.is '/')).length
  { slashes := if slashes ≤ 2 then slashes else 1
    parts := (split t).filter fun p => p ≠ [] ∧ p ≠ Text.ofString "." }

/-- A path as a text. The empty path is that of the directory one is in. -/
def toText (p : Path) : Text :=
  if p.slashes = 0 ∧ p.parts = [] then Text.ofString "."
  else List.replicate p.slashes (CodePoint.ofChar '/') ++ Text.join (Text.ofString "/") p.parts

def display (p : Path) : String := p.toText.display

/-- The end of the last part from its last dot on, unless the dot is its first or last character. -/
def suffix (p : Path) : Text :=
  match p.parts.getLast? with
  | none => []
  | some name =>
    let after := (name.reverse.takeWhile fun c => !c.is '.').reverse
    let dot := name.length - after.length
    if dot ≤ 1 ∨ after = [] then [] else CodePoint.ofChar '.' :: after

/-- Whether the name is that of a settings document. -/
def isYaml (p : Path) : Bool :=
  let s := p.suffix.lower
  s = Text.ofString ".yml" || s = Text.ofString ".yaml"

end Path

end TapeMachine
