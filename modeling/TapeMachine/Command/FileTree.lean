import TapeMachine.Command.World

/-!
A directory with all that is in it, as a list of files and directories. Directories around a listed
entry need not be listed. What lies outside is not known, but for the directories themselves.
-/
namespace TapeMachine

structure FileTree where
  entries : List (List Text × Entry)

/-- Where a path leads. -/
inductive FileTree.Place where
  | inside (parts : List Text)
  | outside
  deriving DecidableEq

namespace FileTree

/-- What is listed under exactly these parts, or implied by what is below them. -/
def find? (t : FileTree) (parts : List Text) : Option Entry :=
  match t.entries.lookup parts with
  | some e => some e
  | none =>
    if parts = [] ∨ t.entries.any fun (p, _) => parts.isPrefixOf p then some .directory else none

/-- Follows parts of a path from a place that has to be a directory. -/
def follow (t : FileTree) : Place → List Text → Except FileFault Place
  | place, [] => .ok place
  | .outside, part :: rest =>
    if part = Text.ofString ".." then follow t .outside rest else .error .missing
  | .inside here, part :: rest =>
    match t.find? here with
    | none => .error .missing
    | some (.file _) => .error .notDirectory
    | some .directory =>
      if part = Text.ofString ".." then
        follow t (if here = [] then .outside else .inside here.dropLast) rest
      else follow t (.inside (here ++ [part])) rest

/-- Where a path leads, if the directories on the way exist. -/
def place (t : FileTree) (p : Path) : Except FileFault Place :=
  match p.parts with
  | [] => .ok (if p.slashes = 0 then .inside [] else .outside)
  | parts => t.follow (if p.slashes = 0 then .inside [] else .outside) parts

def entry (t : FileTree) (p : Path) : Option Entry :=
  match t.place p with
  | .ok (.inside parts) => t.find? parts
  | .ok .outside => some .directory
  | .error _ => none

/-- Why no file with a name can be written at a place. -/
def obstacleAt (t : FileTree) (name : Text) : Place → Option FileFault
  | .outside => if name = Text.ofString ".." then some .isDirectory else none
  | .inside here =>
    match t.find? here with
    | none => some .missing
    | some (.file _) => some .notDirectory
    | some .directory =>
      if name = Text.ofString ".." ∨ t.find? (here ++ [name]) = some .directory then
        some .isDirectory
      else none

def obstacle (t : FileTree) (p : Path) : Option FileFault :=
  if p.toText.any (·.val == 0) then some .nullCharacter
  else
    match p.toText.firstSurrogates 0, p.parts.getLast? with
    | some e, _ => some (.surrogates e)
    | none, none => some .isDirectory
    | none, some name =>
      match t.place { p with parts := p.parts.dropLast } with
      | .error f => some f
      | .ok place => t.obstacleAt name place

end FileTree

end TapeMachine
