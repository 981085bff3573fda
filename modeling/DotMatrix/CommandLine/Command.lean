import DotMatrix.CommandLine.Arguments
import DotMatrix.Session

namespace DotMatrix.CommandLine

inductive Command
  | info (path : String)
  | run (config : Session.Config)
  deriving DecidableEq

namespace Command

def path : Command → String
  | info path => path
  | run config => config.path

def ofArguments (verb : Verb) (args : Arguments) : Except Stop Command :=
  match args.path, verb with
  | none, _ => .error (.usage .missingPath)
  | some path, .info => .ok (info path)
  | some path, .run =>
    .ok (run
      { path
        frames := args.frames.getD Session.defaultFrames
        steps := args.steps
        dumpCpu := !args.quiet })

def ofHelp : List String → Stop
  | [] | ["info"] | ["run"] | ["help"] => .help
  | words => .usage (.unknownCommand (" ".intercalate words))

def ofList : List String → Except Stop Command
  | [] => .error (.usage .noCommand)
  | "info" :: rest => do ofArguments .info (← Arguments.ofList .info rest)
  | "run" :: rest => do ofArguments .run (← Arguments.ofList .run rest)
  | "help" :: rest => .error (ofHelp rest)
  | text :: _ =>
    match Token.ofString text with
    | .word => .error (.usage (.unknownCommand text))
    | .endOfOptions => .error (.usage .noCommand)
    | .long "help" none | .letters ('h' :: _) => .error .help
    | .long name _ => .error (.usage (.unknownOption ("--" ++ name)))
    | .letters cluster => .error (.usage (.unknownOption (.ofList ('-' :: cluster))))

end Command

structure Outcome where
  exitCode : UInt8 := 0
  stdout : String := ""
  stderr : String := ""
  deriving DecidableEq

def usageText : String :=
  "Usage:\n" ++
  "  info ROM    report on a cartridge image\n" ++
  "  run ROM     run a cartridge and print the state it ends in\n" ++
  "    -f, --frames N    frames to run, 60 if not given\n" ++
  "    -s, --steps N     steps to run instead of frames\n" ++
  "    -q, --quiet       leave the state out\n"

def Stop.outcome : Stop → Outcome
  | help => { stdout := usageText }
  | usage cause =>
    { exitCode := 2, stderr := "error: " ++ cause.message ++ "\n\n" ++ usageText }

def Command.execute (command : Command) (contents : Except FileError Image) :
    Except Session.Error String :=
  match command with
  | info path => Session.info path contents
  | run config => do
    let result ← Session.run config contents
    let dump := if config.dumpCpu then result.cpuDump ++ "\n" else ""
    return "'" ++ result.title ++ "': " ++ toString result.frames ++ " frames\n" ++ dump

def Command.outcome (command : Command) (contents : Except FileError Image) : Outcome :=
  match command.execute contents with
  | .ok stdout => { stdout }
  | .error cause => { exitCode := 1, stderr := "error: " ++ cause.message ++ "\n" }

def answer [Monad m] (readImage : String → m (Except FileError Image)) (args : List String) :
    m Outcome :=
  match Command.ofList args with
  | .error stop => return stop.outcome
  | .ok command => do
    let contents ← readImage command.path
    return command.outcome contents

end DotMatrix.CommandLine
