import StackCode.Command.Run

open StackCode

def numberedError (number : UInt32) (text : String) : FileError :=
  match (if number.toNat < 0x80000000 then number.toNat else 0x100000000 - number.toNat) with
  | 2 => .noEntry
  | 13 => .system "Permission denied" 13
  | 20 => .notDirectory
  | 21 => .isDirectory
  | n => .system text n

def fileErrorOf : IO.Error → FileError
  | .alreadyExists _ number text | .otherError number text | .resourceBusy number text
  | .resourceVanished number text | .unsupportedOperation number text
  | .hardwareFault number text | .unsatisfiedConstraints number text
  | .illegalOperation number text | .protocolError number text | .timeExpired number text
  | .interrupted _ number text | .noFileOrDirectory _ number text
  | .invalidArgument _ number text | .permissionDenied _ number text
  | .resourceExhausted _ number text | .inappropriateType _ number text
  | .noSuchThing _ number text => numberedError number text
  | .unexpectedEof | .userError _ => .notText

def withFileError {α : Type} (action : IO α) : IO (Except FileError α) := do
  try
    return .ok (← action)
  catch e => return .error (fileErrorOf e)

def systemFiles : Files IO where
  read path := withFileError do
    match String.fromUTF8? (← IO.FS.readBinFile path) with
    | some text => return text
    | none => throw (IO.userError "")
  write path text := withFileError (IO.FS.writeFile path text)

def main (words : List String) : IO UInt32 := do
  let outcome ← runArguments systemFiles words
  IO.print outcome.stdout
  IO.eprint outcome.stderr
  return outcome.status
