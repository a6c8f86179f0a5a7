import Flowgraph.Countdown.Program

/-!
# The command line of the countdown

One argument gives the counter to start from. The option `--fuel`, which may be given once and
anywhere before a lone `--`, bounds the number of blocks to run. Numbers are decimal digits, with a
plus sign in front if one likes, and have to fit into a machine word.
-/

namespace Flowgraph.Countdown

/-- Why a command line was refused. -/
inductive UsageError where
  /-- The counter is missing. -/
  | missingCount
  /-- There is an argument too many. -/
  | unexpectedArgument (argument : String)
  /-- A text that should be a number is none, or is too large. -/
  | badNumber (text : String)
  /-- The option stands at the end, without its number. -/
  | missingFuel
  /-- The option was given more than once. -/
  | repeatedFuel
  deriving DecidableEq, Repr

/-- What a failure is reported as. -/
def UsageError.message : UsageError → String
  | missingCount => "the count is missing"
  | unexpectedArgument argument => s!"unexpected argument: {argument}"
  | badNumber text => s!"not a number in range: {text}"
  | missingFuel => "the option --fuel needs a number"
  | repeatedFuel => "the option --fuel was given more than once"

/-- What a command line asks for. -/
structure Options where
  count : Nat
  fuel? : Option Nat
  deriving DecidableEq, Repr

/-- The value of a digit. -/
def digit? (char : Char) : Option Nat :=
  if char.isDigit then some (char.toNat - '0'.toNat) else none

/-- The value of a nonempty list of digits. -/
def digits? : List Char → Option Nat
  | [] => none
  | chars => do
    let digits ← chars.mapM digit?
    return digits.foldl (fun value digit => 10 * value + digit) 0

/-- The number that a text stands for. -/
def readNumber (text : String) : Except UsageError Nat :=
  let unsigned := match text.toList with
    | '+' :: rest => rest
    | chars => chars
  match digits? unsigned with
  | some value => if value < Size.limit then .ok value else .error (.badNumber text)
  | none => .error (.badNumber text)

/-- The value of an option that is written in one argument with its name, if it is this option. -/
def attachedValue? (name argument : String) : Option String :=
  let introduction := name.toList ++ ['=']
  if introduction.isPrefixOf argument.toList then
    some (String.ofList (argument.toList.drop introduction.length))
  else
    none

/-- Read a positional argument, of which there is at most one. -/
def readCount (count? : Option Nat) (argument : String) : Except UsageError (Option Nat) :=
  match count? with
  | some _ => .error (.unexpectedArgument argument)
  | none => do return some (← readNumber argument)

/-- Read the value of the option, which is given at most once. -/
def readFuel (fuel? : Option Nat) (text : String) : Except UsageError (Option Nat) :=
  match fuel? with
  | some _ => .error .repeatedFuel
  | none => do return some (← readNumber text)

/-- Read the remaining arguments, given what the earlier ones said. -/
def readArguments (count? fuel? : Option Nat) :
    List String → Except UsageError (Option Nat × Option Nat)
  | [] => .ok (count?, fuel?)
  | "--" :: positional => do return (← positional.foldlM readCount count?, fuel?)
  | "--fuel" :: [] => .error .missingFuel
  | "--fuel" :: text :: rest => do readArguments count? (← readFuel fuel? text) rest
  | argument :: rest =>
    match attachedValue? "--fuel" argument with
    | some text => do readArguments count? (← readFuel fuel? text) rest
    | none => do readArguments (← readCount count? argument) fuel? rest

/-- Read a command line. -/
def Options.ofArguments (arguments : List String) : Except UsageError Options := do
  match ← readArguments none none arguments with
  | (some count, fuel?) => return ⟨count, fuel?⟩
  | (none, _) => throw .missingCount

/-- What the program writes on a command line that it accepts. -/
def transcriptOf (arguments : List String) : Except UsageError Transcript := do
  let options ← Options.ofArguments arguments
  return transcript options.count (options.fuel?.getD Fragment.defaultFuel)

end Flowgraph.Countdown
