/-!
What the operating system answers when it refuses something.
-/

namespace NatBehaviour

inductive OsError
  | notFound
  | permissionDenied
  | fileExists
  | notADirectory
  | isADirectory
  | invalidArgument
  | nameTooLong
  | addressInUse
  | addressNotAvailable
  /-- A path holds a character that no file name can hold. -/
  | nulInName
  /-- A file that is read as text is not UTF-8. -/
  | notText
  | other (text : String)
  deriving DecidableEq, Repr

namespace OsError

def message : OsError → String
  | notFound => "No such file or directory (os error 2)"
  | permissionDenied => "Permission denied (os error 13)"
  | fileExists => "File exists (os error 17)"
  | notADirectory => "Not a directory (os error 20)"
  | isADirectory => "Is a directory (os error 21)"
  | invalidArgument => "Invalid argument (os error 22)"
  | nameTooLong => "File name too long (os error 36)"
  | addressInUse => "Address already in use (os error 98)"
  | addressNotAvailable => "Cannot assign requested address (os error 99)"
  | nulInName => "file name contained an unexpected NUL byte"
  | notText => "stream did not contain valid UTF-8"
  | other text => text

end OsError

end NatBehaviour
