/-
Corpus/Disk/Fault.lean

What can go wrong with files, and how the operating system words it.
-/
namespace Corpus

/-- Why an operation on files failed. -/
inductive Fault where
  | absent
  | denied
  | busy
  | present
  | otherDevice
  | notDirectory
  | isDirectory
  | invalid
  | nameTooLong
  | notEmpty
  | tooManyLinks
  /-- A path holds a zero byte. -/
  | zeroByte
  /-- What is to be copied is no file. -/
  | notFile
  /-- The name or an argument of a program holds a zero byte. -/
  | zeroArgument
  deriving DecidableEq, Repr

namespace Fault

/-- The words and the number of the operating system. -/
def numbered (words : String) (n : Nat) : String := words ++ " (os error " ++ toString n ++ ")"

/-- The text of a fault. -/
def text : Fault → String
  | .absent => numbered "No such file or directory" 2
  | .denied => numbered "Permission denied" 13
  | .busy => numbered "Device or resource busy" 16
  | .present => numbered "File exists" 17
  | .otherDevice => numbered "Invalid cross-device link" 18
  | .notDirectory => numbered "Not a directory" 20
  | .isDirectory => numbered "Is a directory" 21
  | .invalid => numbered "Invalid argument" 22
  | .nameTooLong => numbered "File name too long" 36
  | .notEmpty => numbered "Directory not empty" 39
  | .tooManyLinks => numbered "Too many levels of symbolic links" 40
  | .zeroByte => "file name contained an unexpected NUL byte"
  | .notFile => "the source path is neither a regular file nor a symlink to a regular file"
  | .zeroArgument => "nul byte found in provided data"

end Fault

end Corpus
