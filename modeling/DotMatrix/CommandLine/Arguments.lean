import DotMatrix.CommandLine.Token

namespace DotMatrix.CommandLine

structure Arguments where
  path : Option String := none
  frames : Option Nat := none
  steps : Option Nat := none
  quiet : Bool := false
  awaiting : Option Setting := none
  literal : Bool := false
  deriving DecidableEq

namespace Arguments

def usage (cause : UsageError) : Except Stop α := .error (.usage cause)

def addWord (args : Arguments) (text : String) : Except Stop Arguments :=
  if args.path.isSome then usage (.extraArgument text)
  else if text.isEmpty then usage .emptyPath
  else .ok { args with path := some text }

def setFlag (args : Arguments) : Setting → Except Stop Arguments
  | .help => .error .help
  | .quiet =>
    if args.quiet then usage (.repeatedOption Setting.quiet.name)
    else .ok { args with quiet := true }
  | setting => usage (.missingValue setting.name)

def setValue (args : Arguments) (setting : Setting) (text : String) : Except Stop Arguments :=
  match setting, parseCount? text with
  | .frames, some n =>
    if args.frames.isSome then usage (.repeatedOption setting.name)
    else .ok { args with frames := some n, awaiting := none }
  | .steps, some n =>
    if args.steps.isSome then usage (.repeatedOption setting.name)
    else .ok { args with steps := some n, awaiting := none }
  | .frames, none | .steps, none => usage (.invalidNumber text)
  | .quiet, _ | .help, _ => usage (.unexpectedValue setting.name)

/-- The letters of a cluster are flags up to the first that takes a value. The rest of the cluster
is its value, after an equals sign if one likes; without a rest the next argument is. -/
def addLetters (verb : Verb) (args : Arguments) : List Char → Except Stop Arguments
  | [] => .ok args
  | c :: rest =>
    match (Setting.ofLetter? c).filter verb.allows with
    | none => usage (.unknownOption (.ofList ['-', c]))
    | some setting =>
      if setting.takesValue then
        match rest with
        | [] => .ok { args with awaiting := some setting }
        | '=' :: value => args.setValue setting (.ofList value)
        | value => args.setValue setting (.ofList value)
      else do
        let args ← args.setFlag setting
        addLetters verb args rest

def addLong (verb : Verb) (args : Arguments) (name : String) (value : Option String) :
    Except Stop Arguments :=
  match (Setting.ofWord? name).filter verb.allows with
  | none => usage (.unknownOption ("--" ++ name))
  | some setting =>
    match setting.takesValue, value with
    | true, some text => args.setValue setting text
    | true, none => .ok { args with awaiting := some setting }
    | false, none => args.setFlag setting
    | false, some _ => usage (.unexpectedValue setting.name)

def add (verb : Verb) (args : Arguments) (text : String) : Except Stop Arguments :=
  if args.literal then args.addWord text
  else
    match args.awaiting, Token.ofString text with
    | some setting, .word => args.setValue setting text
    | some setting, _ => usage (.missingValue setting.name)
    | none, .word => args.addWord text
    | none, .endOfOptions => .ok { args with literal := true }
    | none, .long name value => args.addLong verb name value
    | none, .letters cluster => args.addLetters verb cluster

def ofList (verb : Verb) (texts : List String) : Except Stop Arguments := do
  let args ← texts.foldlM (add verb) {}
  match args.awaiting with
  | some setting => usage (.missingValue setting.name)
  | none => return args

end Arguments

end DotMatrix.CommandLine
