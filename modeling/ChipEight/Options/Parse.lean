import ChipEight.Options.Basic
import ChipEight.Text.Integer

/-!
# Reading the command line

Each argument is first classified on its own: as the name of an option, which may be abbreviated and
may have its value attached, or as a value. Then the options take their values from left to right,
and of several occurrences of an option the last one counts.

An abbreviation of more than one option is refused before any option takes effect. `help` takes
effect at once, even if a later argument is wrong.
-/

namespace ChipEight.Options

def names : List (String × Flag) :=
  [("-h", .help), ("--help", .help), ("-f", .file), ("--file", .file), ("-s", .scale),
   ("--scale", .scale), ("-d", .delay), ("--delay", .delay), ("--seed", .seed)]

/-- What follows the name of an option in the same argument. -/
inductive Attached where
  | nothing
  /-- Text behind a long name and an equals sign. -/
  | toLong (text : String)
  /-- Text behind a short name, after an equals sign or right away. -/
  | toShort (text : String)
deriving DecidableEq, Repr

def Attached.value? : Attached → Option String
  | .nothing => none
  | .toLong text => some text
  | .toShort text => some text

inductive Argument where
  /-- Text that can be the value of an option. -/
  | value (text : String)
  /-- Two dashes on their own: what follows are no options. -/
  | separator
  | option (flag : Flag) (attached : Attached)
  /-- Text that looks like an option. -/
  | unknown (text : String)
deriving DecidableEq, Repr

/-- What stands before and behind the first equals sign. -/
def splitAtEquals : List Char → Option (List Char × List Char)
  | [] => none
  | '=' :: rest => some ([], rest)
  | c :: rest => (splitAtEquals rest).map fun (before, behind) => (c :: before, behind)

/-- Whether a text with a leading dash reads as a negative number, with or without a point. A line
break may follow. -/
def isNegativeNumber : List Char → Bool
  | '-' :: rest =>
    let body := if rest.getLast? = some '\n' then rest.dropLast else rest
    let (whole, fraction) := body.span Text.isDecimalDigit
    match fraction with
    | [] => !whole.isEmpty
    | '.' :: places => !places.isEmpty && places.all Text.isDecimalDigit
    | _ => false
  | _ => false

/-- The options that a text may stand for: with two leading dashes those whose names begin with it, up
to an equals sign, and with one dash the one whose short name begins it. -/
def abbreviated (text : List Char) : List (String × Flag × Attached) :=
  match text with
  | '-' :: '-' :: _ =>
    let (start, attached) : List Char × Attached := match splitAtEquals text with
      | some (before, behind) => (before, .toLong (String.ofList behind))
      | none => (text, .nothing)
    (names.filter fun (name, _) => start.isPrefixOf name.toList).map fun (name, flag) =>
      (name, flag, attached)
  | _ =>
    (names.filter fun (name, _) => name.toList = text.take 2).map fun (name, flag) =>
      (name, flag, .toShort (String.ofList (text.drop 2)))

/-- The option that a text names in full, alone or up to an equals sign. -/
def inFull? (text : List Char) : Option Argument :=
  match names.lookup (String.ofList text) with
  | some flag => some (.option flag .nothing)
  | none => (splitAtEquals text).bind fun (before, behind) =>
    (names.lookup (String.ofList before)).map fun flag =>
      let value := String.ofList behind
      .option flag (if before.length = 2 then .toShort value else .toLong value)

/-- What an argument other than the separator is. -/
def classify (argument : String) : Except UsageError Argument :=
  let text := argument.toList
  if text.head? ≠ some '-' ∨ text = ['-'] then .ok (.value argument)
  else match inFull? text with
    | some option => .ok option
    | none =>
      match abbreviated text with
      | [(_, flag, attached)] => .ok (.option flag attached)
      | [] =>
        if isNegativeNumber text || text.contains ' ' then .ok (.value argument)
        else .ok (.unknown argument)
      | several => .error (.ambiguous argument (several.map Prod.fst))

def classifyAll : List String → Except UsageError (List Argument)
  | [] => .ok []
  | argument :: rest =>
    if argument = "--" then .ok (.separator :: rest.map .value)
    else do
      let first ← classify argument
      let others ← classifyAll rest
      return first :: others

/-- The options read so far. -/
structure Draft where
  file : Option (Setting String) := none
  scale : Setting Int := .value 15
  delay : Setting Int := .value 3
  seed : Option (Setting Int) := none
deriving DecidableEq, Repr

def integerFor (flag : Flag) (text : String) : Except UsageError (Setting Int) :=
  if text = "--" then .ok .blank
  else match Text.integer? text with
    | some n => .ok (.value n)
    | none => .error (.notAnInteger flag text)

def Draft.set (d : Draft) (flag : Flag) (text : String) : Except UsageError Draft :=
  match flag with
  | .help => .ok d
  | .file => .ok { d with file := some (if text = "--" then .blank else .value text) }
  | .scale => (integerFor .scale text).map fun n => { d with scale := n }
  | .delay => (integerFor .delay text).map fun n => { d with delay := n }
  | .seed => (integerFor .seed text).map fun n => { d with seed := some n }

/-- What comes of the text behind `-h`, which is read as further short options. It ends in help, unless
a character names no option or an option lacks its value. -/
def afterHelp (rest : List Argument) : List Char → NoOptions
  | [] => .help
  | c :: text =>
    match names.lookup (String.ofList ['-', c]) with
    | none => .wrong (.valueIgnored (String.ofList (c :: text)))
    | some .help => afterHelp rest text
    | some flag =>
      match text, rest with
      | [], .value _ :: _ => .help
      | [], _ => .wrong (.valueExpected flag)
      | _, _ => .help

/-- Lets the options take their values. What belongs to none of them is left over. -/
def consume (d : Draft) : List Argument → Except NoOptions (Draft × List String)
  | [] => .ok (d, [])
  | .value text :: rest => leave text (consume d rest)
  | .unknown text :: rest => leave text (consume d rest)
  | .separator :: rest => leave "--" (consume d rest)
  | .option .help attached :: rest =>
    match attached with
    | .nothing => .error .help
    | .toLong text => .error (.wrong (.valueIgnored text))
    | .toShort "" => .error (.wrong (.valueIgnored ""))
    | .toShort text => .error (afterHelp rest text.toList)
  | .option flag .nothing :: .value text :: rest =>
    match d.set flag text with
    | .ok d => consume d rest
    | .error e => .error (.wrong e)
  | .option flag attached :: rest =>
    match attached.value? with
    | none => .error (.wrong (.valueExpected flag))
    | some text =>
      match d.set flag text with
      | .ok d => consume d rest
      | .error e => .error (.wrong e)
where
  leave (text : String) : Except NoOptions (Draft × List String) → Except NoOptions (Draft × List String)
    | .ok (d, left) => .ok (d, text :: left)
    | .error e => .error e

def parse (arguments : List String) : Except NoOptions Options :=
  match classifyAll arguments with
  | .error e => .error (.wrong e)
  | .ok classified =>
    match consume {} classified with
    | .error e => .error e
    | .ok (d, left) =>
      match d.file with
      | none => .error (.wrong .fileRequired)
      | some file =>
        if left.isEmpty then .ok ⟨file, d.scale, d.delay, d.seed⟩
        else .error (.wrong (.unrecognized left))

end ChipEight.Options
