import Tint.Command.Program
set_option autoImplicit false

/-!
# The command on a system

The outer layer of the program: it takes the arguments and the environment from the system and has
the system carry out the acts of `Program.ofArguments` one by one.  Arguments and paths are texts
here, so only files whose names are UTF-8 can be named.
-/

namespace Tint.Main

/-- A path as the system takes it. -/
def systemPath (path : Path) : String := String.ofList path.display

/-- The number of an error and its wording. -/
def numberAndWording : IO.Error → UInt32 × String
  | .alreadyExists _ number wording | .otherError number wording | .resourceBusy number wording
  | .resourceVanished number wording | .unsupportedOperation number wording
  | .hardwareFault number wording | .unsatisfiedConstraints number wording
  | .illegalOperation number wording | .protocolError number wording
  | .timeExpired number wording | .interrupted _ number wording
  | .noFileOrDirectory _ number wording | .invalidArgument _ number wording
  | .permissionDenied _ number wording | .resourceExhausted _ number wording
  | .inappropriateType _ number wording | .noSuchThing _ number wording => (number, wording)
  | .unexpectedEof => (0, "end of file")
  | .userError wording => (0, wording)

/-- There is something at a path, though it may not be open to the user. -/
def isThere (path : Path) : IO Bool := do
  try
    discard <| IO.FS.realPath (systemPath path)
    return true
  catch _ => return false

/-- The fault behind an error; `found` if there is a file all the same. -/
def faultOf (found : Bool) (error : IO.Error) : Fault :=
  let (number, wording) := numberAndWording error
  match number.toNat with
  | 2 => .notFound
  | 13 => if found then .denied else .system 13 wording.toList false
  | 20 => .notADirectory
  | 21 => .isADirectory
  | 36 => .nameTooLong
  | number => .system number wording.toList found

/-- Does something to the file at a path. -/
def access {α : Type} (path : Path) (act : String → IO (Except Fault α)) :
    IO (Except Fault α) := do
  if path.contains 0 then return .error .holdsNul
  try
    act (systemPath path)
  catch e => return .error (faultOf (← isThere path) e)

/-- A text in UTF-8. -/
def decode (bytes : ByteArray) : Except Fault Text :=
  match String.fromUTF8? bytes with
  | some s => .ok s.toList
  | none => .error .notUtf8

/-- Reads a file. -/
def readFile (path : Path) : IO (Except Fault Text) :=
  access path fun file => return decode (← (← IO.FS.Handle.mk file .read).readBinToEnd)

/-- Reads the standard input to its end. -/
def readStdin : IO (Except Fault Text) := do
  try
    return decode (← (← IO.getStdin).readBinToEnd)
  catch e => return .error (faultOf true e)

/-- Writes a file. -/
def writeFile (path : Path) (text : Text) : IO (Except Fault Unit) :=
  access path fun file => return .ok (← IO.FS.writeFile file (String.ofList text))

/-- Shows the records that pass a threshold. -/
def report (threshold : Nat) (records : List LogRecord) : IO Unit := do
  let stderr ← IO.getStderr
  for record in records.filter (LogRecord.isShown threshold) do
    stderr.putStrLn (String.ofList record.line)

/-- Has the system carry out a program. -/
def perform {α : Type} (threshold : Nat) : Program α → IO α
  | .done a => return a
  | .report records next => do
    report threshold records
    perform threshold next
  | .readFile path next => do perform threshold (next (← readFile path))
  | .readStdin next => do perform threshold (next (← readStdin))
  | .writeFile path text next => do perform threshold (next (← writeFile path text))
  | .print text next => do
    (← IO.getStdout).putStr (String.ofList text)
    perform threshold next

end Tint.Main

/-- The command `snowbud`. -/
def main (arguments : List String) : IO UInt32 := do
  let level := (← IO.getEnv "RUST_LOG").bind fun word => Tint.LogLevel.threshold? word.toList
  let threshold := level.getD Tint.LogLevel.defaultThreshold
  let home := (← IO.getEnv "HOME").map String.toList
  let command := Tint.Program.ofArguments home (arguments.map Tint.Bytes.ofString)
  let code ← Tint.Main.perform threshold command
  if code = Tint.Program.misuseCode then
    (← IO.getStderr).putStr (String.ofList Tint.Program.helpText)
  return code.toUInt32
