import ChipEight.Text.Quoted

/-!
# Options

The options of the command line, the ways to stop without them, and what the program then prints.
-/

namespace ChipEight

/-- The value of an option. Two dashes in place of a value leave it blank. -/
inductive Setting (α : Type) where
  | blank
  | value (a : α)
deriving DecidableEq, Repr

structure Options where
  /-- The path of the program to run. -/
  file : Setting String
  /-- The side in pixels of a cell of the display. -/
  scale : Setting Int
  /-- The least time between two cycles, in milliseconds. -/
  delay : Setting Int
  /-- The seed of the random values, if the option is used. -/
  seed : Option (Setting Int)
deriving DecidableEq, Repr

/-- The options by kind. All but `help` take a value. -/
inductive Flag where
  | help
  | file
  | scale
  | delay
  | seed
deriving DecidableEq, Repr

/-- The name of an option in messages. -/
def Flag.title : Flag → String
  | .help => "-h/--help"
  | .file => "-f/--file"
  | .scale => "-s/--scale"
  | .delay => "-d/--delay"
  | .seed => "--seed"

inductive UsageError where
  /-- An abbreviation of several options. -/
  | ambiguous (argument : String) (names : List String)
  /-- An option without its value. -/
  | valueExpected (flag : Flag)
  /-- A value given to `help`. -/
  | valueIgnored (value : String)
  | notAnInteger (flag : Flag) (value : String)
  /-- No program is named. -/
  | fileRequired
  | unrecognized (arguments : List String)
deriving DecidableEq, Repr

def UsageError.message : UsageError → String
  | .ambiguous argument names =>
    "ambiguous option: " ++ argument ++ " could match " ++ String.intercalate ", " names
  | .valueExpected flag => "argument " ++ flag.title ++ ": expected one argument"
  | .valueIgnored value =>
    "argument " ++ Flag.help.title ++ ": ignored explicit argument " ++ Text.quoted value
  | .notAnInteger flag value =>
    "argument " ++ flag.title ++ ": invalid int value: " ++ Text.quoted value
  | .fileRequired => "the following arguments are required: " ++ Flag.file.title
  | .unrecognized arguments => "unrecognized arguments: " ++ String.intercalate " " arguments

/-- Why the command line gives no options: help was asked for, or it is wrong. -/
inductive NoOptions where
  | help
  | wrong (e : UsageError)
deriving DecidableEq, Repr

namespace NoOptions

def usage : String := "usage: chip8 [-h] -f FILE [-s SCALE] [-d DELAY] [--seed SEED]\n"

def helpText : String :=
  usage ++
  "\nCHIP-8 interpreter\n\noptions:\n" ++
  "  -h, --help            show this help message and exit\n" ++
  "  -f FILE, --file FILE  input rom file\n" ++
  "  -s SCALE, --scale SCALE\n" ++
  "                        size in screen pixels of a CHIP-8 pixel\n" ++
  "  -d DELAY, --delay DELAY\n" ++
  "                        minimum milliseconds between two cycles\n" ++
  "  --seed SEED           seed for the RND instruction\n"

def status : NoOptions → Nat
  | .help => 0
  | .wrong _ => 2

def output : NoOptions → String
  | .help => helpText
  | .wrong _ => ""

def complaint : NoOptions → String
  | .help => ""
  | .wrong e => usage ++ "chip8: error: " ++ e.message ++ "\n"

end NoOptions
end ChipEight
