/-!
# Reading files

Why a file could not be read as text. The system's own reasons come with a number.
-/

namespace BoardLang.Shell

inductive ReadError where
  | system (reason : String) (code : Nat)
  | notText
deriving DecidableEq, Repr

namespace ReadError

def missing : ReadError := .system "No such file or directory" 2

/-- The path goes through something that is no directory. -/
def notDirectory : ReadError := .system "Not a directory" 20

def isDirectory : ReadError := .system "Is a directory" 21

def message : ReadError → String
  | system reason code => reason ++ " (os error " ++ toString code ++ ")"
  | notText => "stream did not contain valid UTF-8"

end ReadError

def decodeText (bytes : ByteArray) : Except ReadError String :=
  match String.fromUTF8? bytes with
  | some text => .ok text
  | none => .error .notText

end BoardLang.Shell
