namespace DotMatrix.CommandLine

inductive Setting
  | frames
  | steps
  | quiet
  | help
  deriving DecidableEq

inductive Verb
  | info
  | run
  deriving DecidableEq

inductive UsageError
  | noCommand
  | unknownCommand (word : String)
  | unknownOption (option : String)
  | unexpectedValue (option : String)
  | missingValue (option : String)
  | invalidNumber (text : String)
  | repeatedOption (option : String)
  | emptyPath
  | missingPath
  | extraArgument (word : String)
  deriving DecidableEq

def UsageError.message : UsageError → String
  | noCommand => "a command is required"
  | unknownCommand word => "unrecognized command '" ++ word ++ "'"
  | unknownOption option => "unexpected option '" ++ option ++ "'"
  | unexpectedValue option => "option '" ++ option ++ "' takes no value"
  | missingValue option => "option '" ++ option ++ "' needs a value"
  | invalidNumber text => "'" ++ text ++ "' is not a count"
  | repeatedOption option => "option '" ++ option ++ "' is given more than once"
  | emptyPath => "the path of the ROM image is empty"
  | missingPath => "the path of the ROM image is missing"
  | extraArgument word => "unexpected argument '" ++ word ++ "'"

inductive Stop
  | help
  | usage (cause : UsageError)
  deriving DecidableEq

namespace Setting

def takesValue : Setting → Bool
  | frames | steps => true
  | quiet | help => false

def name : Setting → String
  | frames => "--frames"
  | steps => "--steps"
  | quiet => "--quiet"
  | help => "--help"

def ofLetter? : Char → Option Setting
  | 'f' => some frames
  | 's' => some steps
  | 'q' => some quiet
  | 'h' => some help
  | _ => none

def ofWord? : String → Option Setting
  | "frames" => some frames
  | "steps" => some steps
  | "quiet" => some quiet
  | "help" => some help
  | _ => none

end Setting

def Verb.allows : Verb → Setting → Bool
  | .run, _ => true
  | .info, setting => setting == .help

inductive Token
  | word
  | endOfOptions
  | long (name : String) (value : Option String)
  | letters (cluster : List Char)
  deriving DecidableEq

def Token.ofString (text : String) : Token :=
  match text.toList with
  | ['-', '-'] => endOfOptions
  | '-' :: '-' :: rest =>
    match rest.span (· != '=') with
    | (name, []) => long (.ofList name) none
    | (name, _ :: value) => long (.ofList name) (some (.ofList value))
  | '-' :: c :: rest => letters (c :: rest)
  | _ => word

/-- Counts are numbers of 64 bits: decimal digits, after a plus sign if one likes. -/
def parseCount? (text : String) : Option Nat :=
  let digits := match text.toList with
    | '+' :: rest => rest
    | chars => chars
  if digits.isEmpty ∨ digits.any (!·.isDigit) then none
  else
    let count := digits.foldl (fun n c => 10 * n + (c.toNat - '0'.toNat)) 0
    if count < UInt64.size then some count else none

end DotMatrix.CommandLine
