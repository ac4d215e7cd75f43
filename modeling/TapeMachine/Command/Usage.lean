import TapeMachine.Text.Quoted

/-!
What the command says about its use, and about arguments that it does not take.
-/
namespace TapeMachine

/-- The commands. Where one is optional, `none` stands for the program as a whole. -/
inductive CommandName where
  | run | parse
  deriving DecidableEq, Repr

namespace CommandName

def text : CommandName → String
  | run => "run"
  | parse => "parse"

def all : List CommandName := [run, parse]

def ofText? (t : Text) : Option CommandName := all.find? fun c => t = Text.ofString c.text

end CommandName

inductive UsageError where
  | ambiguous (option : Text) (candidates : List String)
  | valueMissing (name : String)
  | valueIgnored (name : String) (value : Text)
  | notInteger (name : String) (value : Text)
  | notChoice (name : String) (value : Text) (choices : List String)
  | conflict (name other : String)
  | pathNotFound (name : String) (path : Text)
  | notYaml (name : String) (path : Text)
  | required (name : String)
  | unrecognized (arguments : List Text)
  deriving DecidableEq

def UsageError.message : UsageError → String
  | .ambiguous option candidates =>
    "ambiguous option: " ++ option.display ++ " could match " ++ ", ".intercalate candidates
  | .valueMissing name => s!"argument {name}: expected one argument"
  | .valueIgnored name value => s!"argument {name}: ignored explicit argument " ++ value.quoted
  | .notInteger name value => s!"argument {name}: invalid int value: " ++ value.quoted
  | .notChoice name value choices =>
    s!"argument {name}: invalid choice: " ++ value.quoted ++ " (choose from " ++
      ", ".intercalate (choices.map fun c => (Text.ofString c).quoted) ++ ")"
  | .conflict name other => s!"argument {name}: not allowed with argument {other}"
  | .pathNotFound name path => s!"argument {name}: path not found: " ++ path.display
  | .notYaml name path => s!"argument {name}: config must be YAML: " ++ path.display
  | .required name => s!"the following arguments are required: {name}"
  | .unrecognized arguments =>
    "unrecognized arguments: " ++ (Text.join (Text.ofString " ") arguments).display

namespace Usage

def title : Option CommandName → String
  | none => "bfvm"
  | some c => "bfvm " ++ c.text

def text : Option CommandName → String
  | none => "usage: bfvm [-h] \x7brun,parse\x7d ...\n"
  | some .parse => "usage: bfvm parse [-h] program\n"
  | some .run =>
    "usage: bfvm run [-h] [--input INPUT | --input-file INPUT_FILE]\n" ++
    "                [--strict-loops] [--cell-bits CELL_BITS]\n" ++
    "                [--overflow \x7bwrap,trap\x7d] [--config CONFIG] [--trace]\n" ++
    "                [--dump-tape DUMP_TAPE]\n" ++
    "                program\n"

/-- What the arguments of a command mean. -/
def details : Option CommandName → String
  | none =>
    "positional arguments:\n" ++
    "  \x7brun,parse\x7d\n" ++
    "    run        execute a program file\n" ++
    "    parse      print the program with comments stripped\n" ++
    "\n" ++
    "options:\n" ++
    "  -h, --help   show this help message and exit\n"
  | some .parse =>
    "positional arguments:\n" ++
    "  program\n" ++
    "\n" ++
    "options:\n" ++
    "  -h, --help  show this help message and exit\n"
  | some .run =>
    "positional arguments:\n" ++
    "  program\n" ++
    "\n" ++
    "options:\n" ++
    "  -h, --help            show this help message and exit\n" ++
    "  --input INPUT         program input text (default: stdin)\n" ++
    "  --input-file INPUT_FILE\n" ++
    "                        read program input from a file\n" ++
    "  --strict-loops        skip a loop body when the cell is zero on entry\n" ++
    "  --cell-bits CELL_BITS\n" ++
    "  --overflow \x7bwrap,trap\x7d\n" ++
    "  --config CONFIG       settings YAML\n" ++
    "  --trace               log every step to stderr\n" ++
    "  --dump-tape DUMP_TAPE\n" ++
    "                        write a JSON run report (output and final tape) to\n" ++
    "                        this path\n"

def help (c : Option CommandName) : String := text c ++ "\n" ++ details c

def refusal (c : Option CommandName) (e : UsageError) : String :=
  text c ++ title c ++ ": error: " ++ e.message ++ "\n"

end Usage

end TapeMachine
