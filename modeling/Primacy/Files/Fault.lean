/-
  Primacy.Files.Fault

  Why an access to the disk fails, and the text that the operating system gives for it.
-/

namespace Primacy.Files

inductive Fault where
  | notFound
  | notDirectory
  | isDirectory
  | alreadyExists
  | tooManyLinks
  | nameTooLong
  /-- The path holds a NUL character. -/
  | unusablePath
  /-- The file was to be read as text and is not UTF-8. -/
  | notText
  /-- The directories above a path could not be made, and no single step says why. -/
  | unfinished
  deriving DecidableEq, Inhabited

def Fault.message : Fault → String
  | .notFound => "No such file or directory (os error 2)"
  | .notDirectory => "Not a directory (os error 20)"
  | .isDirectory => "Is a directory (os error 21)"
  | .alreadyExists => "File exists (os error 17)"
  | .tooManyLinks => "Too many levels of symbolic links (os error 40)"
  | .nameTooLong => "File name too long (os error 36)"
  | .unusablePath => "file name contained an unexpected NUL byte"
  | .notText => "stream did not contain valid UTF-8"
  | .unfinished => "failed to create whole tree"

end Primacy.Files
