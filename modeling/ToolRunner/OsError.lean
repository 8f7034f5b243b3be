/-!
# Errors of the operating system

Why a file could not be reached or read, or a program not started.
-/

namespace ToolRunner

/-- The cause of a failed system call, or of one that was not made because of its arguments. -/
inductive OsError where
  | notFound
  | argumentsTooLong
  | notExecutableFormat
  | permissionDenied
  | notADirectory
  | isADirectory
  | nameTooLong
  | tooManyLinks
  | nulInCommand
  | nulInPath
  | notUtf8
  | other (message : String)
deriving DecidableEq, Repr

namespace OsError

/-- What the system calls the error. -/
def text : OsError → String
  | notFound => "No such file or directory"
  | argumentsTooLong => "Argument list too long"
  | notExecutableFormat => "Exec format error"
  | permissionDenied => "Permission denied"
  | notADirectory => "Not a directory"
  | isADirectory => "Is a directory"
  | nameTooLong => "File name too long"
  | tooManyLinks => "Too many levels of symbolic links"
  | nulInCommand => "nul byte found in provided data"
  | nulInPath => "file name contained an unexpected NUL byte"
  | notUtf8 => "stream did not contain valid UTF-8"
  | other message => message

/-- The system's number of the error; errors found before the call have none. -/
def number? : OsError → Option Nat
  | notFound => some 2
  | argumentsTooLong => some 7
  | notExecutableFormat => some 8
  | permissionDenied => some 13
  | notADirectory => some 20
  | isADirectory => some 21
  | nameTooLong => some 36
  | tooManyLinks => some 40
  | _ => none

def message (e : OsError) : String :=
  match e.number? with
  | some n => e.text ++ " (os error " ++ toString n ++ ")"
  | none => e.text

end OsError

end ToolRunner
