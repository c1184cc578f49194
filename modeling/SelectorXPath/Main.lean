import SelectorXPath.CommandLine.Run

namespace SelectorXPath

namespace Main

def systemNumber (code : UInt32) : UInt32 := if code < 0x80000000 then code else 0 - code

def fileErrorOf : IO.Error → FileError
  | .inappropriateType _ code _ =>
    if systemNumber code = 20 then .notDirectory else .isDirectory
  | .invalidArgument _ code _ => if systemNumber code = 36 then .nameTooLong else .notFound
  | _ => .notFound

def readEntry (path : String) : IO (Except FileError FileEntry) := do
  try
    let bytes ← IO.FS.readBinFile path
    return .ok (.file bytes.toList)
  catch e =>
    match fileErrorOf e with
    | .isDirectory => return .ok .directory
    | error => return .error error

partial def readAll (stream : IO.FS.Stream) (before : ByteArray) : IO ByteArray := do
  let more ← stream.read 65536
  if more.isEmpty then return before else readAll stream (before ++ more)

def readWorld (options : Options) : IO World := do
  let found ← match options.file with
    | some name => readEntry (String.ofList name)
    | none => pure (.error .notFound)
  let config ← match ← IO.getEnv "HOME" with
    | some home => pure (← readEntry (home ++ "/" ++ String.ofList Config.writtenPath)).toOption
    | none => pure none
  let input ←
    if options.file.isNone && options.selectors.isEmpty then
      readAll (← IO.getStdin) .empty
    else pure .empty
  return ⟨fun _ => found, config, input.toList⟩

def finish (outcome : Outcome) : IO UInt32 := do
  (← IO.getStdout).putStr (String.ofList outcome.output)
  (← IO.getStderr).putStr (String.ofList outcome.complaints)
  return outcome.status.toUInt32

end Main

end SelectorXPath

open SelectorXPath in
def main (words : List String) : IO UInt32 := do
  let words := words.map String.toList
  let world ← match readCommandLine words with
    | some (.run options) => Main.readWorld options
    | _ => pure ⟨fun _ => .error .notFound, none, []⟩
  match runCommand world words with
  | some outcome => Main.finish outcome
  | none => Main.finish ⟨2, [], usageText⟩
