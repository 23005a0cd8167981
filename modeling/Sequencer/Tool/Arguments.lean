import Sequencer.Player

/-! The arguments of the command line. They are words, which name the command and its files,
and options, which may stand anywhere among the words. Options of the whole tool may stand
before and after the command's name, options of a command only after it. -/
namespace Sequencer.Tool

/-- What the tool can do with a sequence. A file's name may be `-` for the standard streams. -/
inductive Command
  | info (file : String)
  | events (file : String) (track : Option Nat)
  | timeline (file : String) (first : Nat) (last : Option Nat) (pass : Pass)
  | midi (input output : String)
deriving DecidableEq, Repr

structure Settings where
  loopCount : Nat := 1
  maxSteps : Option Nat := none
deriving DecidableEq, Repr

inductive Request
  | run (command : Command) (settings : Settings)
  | version
  | help
  | misuse
deriving DecidableEq, Repr

def digitsValue (digits : List Char) : Option Nat :=
  if digits ≠ [] && digits.all Char.isDigit then
    some (digits.foldl (fun n c => 10 * n + (c.toNat - '0'.toNat)) 0)
  else none

/-- A number below `bound`, which may have a plus sign. -/
def count? (bound : Nat) (text : String) : Option Nat := do
  let n ← digitsValue (match text.toList with
    | '+' :: digits => digits
    | digits => digits)
  if n < bound then some n else none

/-- A count of 32 bits. It is read as a signed number, so that zero may have a minus sign. -/
def count32? (text : String) : Option Nat :=
  match text.toList with
  | '-' :: digits => do
    let n ← digitsValue digits
    if n = 0 then some 0 else none
  | _ => count? (Nat.pow 2 32) text

def pass? (text : String) : Option Pass :=
  match text with
  | "ui" => some .listing
  | "length" => some .length
  | "midi" => some .midi
  | _ => none

inductive OptionRule
  /-- It may be repeated and takes no value. -/
  | flag
  /-- It stands once and takes a value that `valid` accepts. -/
  | valued (valid : String → Bool)
  | ends (request : Request)

/-- The options that are known at a place, by their long names. -/
abbrev Rules := List (String × OptionRule)

def commonRules : Rules :=
  [("loops", .valued fun text => (count32? text).isSome),
    ("max-steps", .valued fun text => (count32? text).isSome), ("verbose", .flag),
    ("help", .ends .help)]

def leadingRules : Rules := ("version", .ends .version) :: commonRules

def trackRules : Rules :=
  ("track", .valued fun text => (count? (Nat.pow 2 64) text).isSome) :: commonRules

def timelineRules : Rules :=
  [("tick", .valued fun text => (count32? text).isSome),
    ("until", .valued fun text => (count32? text).isSome),
    ("pass", .valued fun text => (pass? text).isSome)] ++ commonRules

def shortNames : List (Char × String) := [('v', "verbose"), ('V', "version"), ('h', "help")]

structure Reading where
  values : List (String × String) := []
  words : List String := []

abbrev ReadResult := Except Request

namespace Reading

/-- Takes in a word, if there are not yet `limit` of them. Files have names. -/
def addWord (limit : Nat) (reading : Reading) (word : String) : ReadResult Reading :=
  if word = "" || limit ≤ reading.words.length then .error .misuse
  else .ok { reading with words := reading.words ++ [word] }

def addValue (reading : Reading) (name value : String) (valid : String → Bool) :
    ReadResult Reading :=
  if (reading.values.lookup name).isSome || !valid value then .error .misuse
  else .ok { reading with values := (name, value) :: reading.values }

def addLetters (rules : Rules) (reading : Reading) : List Char → ReadResult Reading
  | [] => .ok reading
  | letter :: rest =>
    match (shortNames.lookup letter).bind fun name => rules.lookup name with
    | some .flag => addLetters rules reading rest
    | some (.ends request) => .error request
    | _ => .error .misuse

end Reading

inductive Argument
  | word (text : String)
  /-- Only words follow. -/
  | separator
  | letters (letters : List Char)
  | long (name : String) (value : Option String)

def splitLong (text : List Char) : Argument :=
  let name := String.ofList (text.takeWhile (· ≠ '='))
  match text.dropWhile (· ≠ '=') with
  | [] => .long name none
  | _ :: value => .long name (some (String.ofList value))

def Argument.ofText (text : String) : Argument :=
  match text.toList with
  | ['-', '-'] => .separator
  | '-' :: '-' :: rest => splitLong rest
  | '-' :: letter :: rest => .letters (letter :: rest)
  | _ => .word text

def isValue (text : String) : Bool :=
  match Argument.ofText text with
  | .word _ => true
  | _ => false

/-- Which words are read: one that is the name of a command, which ends the reading, or a
number of names of files. -/
inductive Expected
  | command
  | files (count : Nat)

/-- Reads arguments up to the name of a command, or to the end, and returns what is left. -/
def readArguments (rules : Rules) (expected : Expected) :
    (reading : Reading) → List String → ReadResult (Reading × List String)
  | reading, [] => .ok (reading, [])
  | reading, text :: rest =>
    match Argument.ofText text with
    | .word word =>
      match expected with
      | .command => return (← reading.addWord 1 word, rest)
      | .files count => do readArguments rules expected (← reading.addWord count word) rest
    | .separator =>
      match expected with
      | .command => throw .misuse
      | .files count => return (← rest.foldlM (Reading.addWord count) reading, [])
    | .letters letters => do
      let reading ← reading.addLetters rules letters
      readArguments rules expected reading rest
    | .long name value =>
      match rules.lookup name, value with
      | some .flag, none => readArguments rules expected reading rest
      | some (.ends request), none => .error request
      | some (.valued valid), some value => do
        let reading ← reading.addValue name value valid
        readArguments rules expected reading rest
      | some (.valued valid), none =>
        match rest with
        | value :: rest =>
          if isValue value then do
            let reading ← reading.addValue name value valid
            readArguments rules expected reading rest
          else .error .misuse
        | [] => .error .misuse
      | _, _ => .error .misuse

structure Usage where
  rules : Rules
  fileCount : Nat

def usages : List (String × Usage) :=
  [("info", ⟨commonRules, 1⟩), ("events", ⟨trackRules, 1⟩), ("timeline", ⟨timelineRules, 1⟩),
    ("midi", ⟨commonRules, 2⟩)]

/-- What stands after the word `help`, if anything, is one name that is known. -/
def helpRequest (topics : List String) : Request :=
  match topics with
  | [] => .help
  | [topic] => if topic = "help" || (usages.lookup topic).isSome then .help else .misuse
  | _ => .misuse

namespace Reading

def count (reading : Reading) (name : String) : Option Nat :=
  (reading.values.lookup name).bind count32?

def command (name : String) (reading : Reading) : Option Command :=
  match name, reading.words with
  | "info", [file] => some (.info file)
  | "events", [file] =>
    some (.events file ((reading.values.lookup "track").bind (count? (Nat.pow 2 64))))
  | "timeline", [file] =>
    some (.timeline file ((reading.count "tick").getD 0) (reading.count "until")
      (((reading.values.lookup "pass").bind pass?).getD .midi))
  | "midi", [input, output] => some (.midi input output)
  | _, _ => none

/-- The settings that stand after the command's name, and else before it. -/
def settings (leading following : Reading) : Settings :=
  { loopCount := ((following.count "loops").or (leading.count "loops")).getD 1
    maxSteps := (following.count "max-steps").or (leading.count "max-steps") }

end Reading

def readRequest (arguments : List String) : ReadResult Request := do
  let (leading, rest) ← readArguments leadingRules .command {} arguments
  match leading.words with
  | [name] =>
    if name = "help" then return helpRequest rest
    match usages.lookup name with
    | none => return .misuse
    | some usage =>
      let (following, _) ← readArguments usage.rules (.files usage.fileCount) {} rest
      match following.command name with
      | none => return .misuse
      | some command => return .run command (Reading.settings leading following)
  | _ => return .misuse

def Request.ofArguments (arguments : List String) : Request :=
  match readRequest arguments with
  | .ok request => request
  | .error request => request

end Sequencer.Tool
