import JsonUnpack.Settings

/-! The command line: at most one file, and options that are each given at most once. A value may be
attached to its option or follow it; one that follows may not start with a hyphen, unless it is a
single hyphen. -/
namespace JsonUnpack.Command

/-- The options that take a value. -/
inductive Flag
  | bufferSize
  | output
  | config
  | setting (s : Setting)
  deriving DecidableEq

namespace Flag

/-- The long name of an option. That of a setting is its key with hyphens for the underscores. -/
def longName : Flag → String
  | bufferSize => "buffer-size"
  | output => "output"
  | config => "config"
  | setting s => s.key.map fun c => if c = '_' then '-' else c

def all : List Flag := [bufferSize, output, config] ++ Setting.all.map setting

/-- The option with a given long name, which must be complete. -/
def ofLong? (name : String) : Option Flag := all.find? (·.longName = name)

/-- The option with a given letter. -/
def ofShort? : Char → Option Flag
  | 'b' => some bufferSize
  | 'o' => some output
  | _ => none

end Flag

/-- What a run is asked to do. Without an input file the document comes from standard input, without
an output file the program goes to standard output. -/
structure Invocation where
  input : Option String := none
  bufferSize : Option String := none
  output : Option String := none
  config : Option String := none
  choices : Choices := .none
  deriving DecidableEq

inductive Request
  | help
  | run (invocation : Invocation)
  deriving DecidableEq

/-- Why a command line is refused. -/
inductive UsageError
  | unknownOption (argument : String)
  | missingValue (flag : Flag)
  | badValue (flag : Flag) (value : String)
  | repeated (flag : Flag)
  | emptyFile
  | secondFile (argument : String)
  deriving DecidableEq

def UsageError.message : UsageError → String
  | unknownOption argument => "unexpected argument '" ++ argument ++ "'"
  | missingValue flag => "a value is required for '--" ++ flag.longName ++ "'"
  | badValue flag value => "invalid value '" ++ value ++ "' for '--" ++ flag.longName ++ "'"
  | repeated flag => "the argument '--" ++ flag.longName ++ "' cannot be used multiple times"
  | emptyFile => "a value is required for '[FILE]'"
  | secondFile argument => "unexpected argument '" ++ argument ++ "'"

/-- The number that decimal digits make; there must be one. -/
def naturalNumber? (digits : List Char) : Option Nat :=
  if digits ≠ [] ∧ digits.all Char.isDigit then
    some (digits.foldl (fun n d => 10 * n + (d.toNat - '0'.toNat)) 0)
  else none

/-- The value of a setting on the command line: digits, perhaps after a plus sign. -/
def settingValue? (text : String) : Option UInt64 := do
  let n ← naturalNumber? (match text.toList with
    | '+' :: digits => digits
    | digits => digits)
  if h : n < UInt64.size then some (.ofNatLT n h) else none

namespace Invocation

/-- Whether an option has been given. -/
def has (invocation : Invocation) : Flag → Bool
  | .bufferSize => invocation.bufferSize.isSome
  | .output => invocation.output.isSome
  | .config => invocation.config.isSome
  | .setting s => (invocation.choices.get s).isSome

/-- Gives an option. The name of a file is not empty, the size of the buffer may be. -/
def give (invocation : Invocation) (flag : Flag) (value : String) : Except UsageError Invocation :=
  if invocation.has flag then .error (.repeated flag)
  else
    match flag with
    | .bufferSize => .ok { invocation with bufferSize := some value }
    | .output =>
      if value = "" then .error (.badValue flag value)
      else .ok { invocation with output := some value }
    | .config =>
      if value = "" then .error (.badValue flag value)
      else .ok { invocation with config := some value }
    | .setting s =>
      match settingValue? value with
      | none => .error (.badValue flag value)
      | some n => .ok { invocation with choices := invocation.choices.set s (some n) }

/-- Gives the input file. -/
def giveFile (invocation : Invocation) (file : String) : Except UsageError Invocation :=
  if invocation.input.isSome then .error (.secondFile file)
  else if file = "" then .error .emptyFile
  else .ok { invocation with input := some file }

end Invocation

/-- What an argument is by its form. -/
inductive Argument
  | file
  | endOfOptions
  | help
  | option (flag : Flag) (attached : Option String)
  | unknown
  deriving DecidableEq

/-- A long option, with its value after the first equals sign. -/
def longArgument (text : List Char) : Argument :=
  let name : String := .ofList (text.takeWhile (· ≠ '='))
  let attached : Option String := match text.dropWhile (· ≠ '=') with
    | [] => none
    | _ :: value => some (.ofList value)
  if name = "help" ∧ attached = none then .help
  else
    match Flag.ofLong? name with
    | some flag => .option flag attached
    | none => .unknown

/-- A short option, with its value right after it or after an equals sign. -/
def shortArgument (letter : Char) (text : List Char) : Argument :=
  let attached : Option String := match text with
    | [] => none
    | '=' :: value => some (.ofList value)
    | value => some (.ofList value)
  if letter = 'h' then .help
  else
    match Flag.ofShort? letter with
    | some flag => .option flag attached
    | none => .unknown

def Argument.ofString (argument : String) : Argument :=
  match argument.toList with
  | ['-', '-'] => .endOfOptions
  | '-' :: '-' :: text => longArgument text
  | '-' :: letter :: text => shortArgument letter text
  | _ => .file

/-- Whether an argument can be the value of the option before it. -/
def canBeValue (argument : String) : Bool :=
  argument = "-" || argument.toList.head? ≠ some '-'

/-- The arguments after the end of the options, which are all files. -/
def files (invocation : Invocation) : List String → Except UsageError Request
  | [] => .ok (.run invocation)
  | file :: rest => do files (← invocation.giveFile file) rest

/-- Reads arguments in order; the first fault decides, and so does a request for help before it. -/
def arguments (invocation : Invocation) : List String → Except UsageError Request
  | [] => .ok (.run invocation)
  | argument :: rest =>
    match Argument.ofString argument with
    | .file => do arguments (← invocation.giveFile argument) rest
    | .endOfOptions => files invocation rest
    | .help => .ok .help
    | .unknown => .error (.unknownOption argument)
    | .option flag (some value) => do arguments (← invocation.give flag value) rest
    | .option flag none =>
      match rest with
      | [] => .error (.missingValue flag)
      | value :: rest =>
        if canBeValue value then do arguments (← invocation.give flag value) rest
        else .error (.missingValue flag)

/-- Reads a command line. -/
def parse (line : List String) : Except UsageError Request := arguments {} line

end JsonUnpack.Command
