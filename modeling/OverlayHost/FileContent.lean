/-!
# The content of a file

What reading a file may give. Whatever needs files asks for this, so that it does not matter where they are.
-/

set_option autoImplicit false

namespace OverlayHost

/-- Why a file cannot be read. -/
inductive ReadError where
  | notFound
  | notDirectory
  | isDirectory
  | nameTooLong
  /-- The path holds a character that no name may hold. -/
  | nulInPath
  /-- The bytes are no text. -/
  | notText
  /-- The system says why not. -/
  | system (reason : String) (code : UInt32)
deriving DecidableEq, Repr

/-- The error in words. -/
def ReadError.message : ReadError → String
  | .notFound => "No such file or directory (os error 2)"
  | .notDirectory => "Not a directory (os error 20)"
  | .isDirectory => "Is a directory (os error 21)"
  | .nameTooLong => "File name too long (os error 36)"
  | .nulInPath => "file name contained an unexpected NUL byte"
  | .notText => "stream did not contain valid UTF-8"
  | .system reason code => s!"{reason} (os error {code})"

/-- The bytes of a file, or why there are none. -/
abbrev FileContent := Except ReadError (List UInt8)

end OverlayHost
