import Docroot.Text.Basic

/-!
The ways in which reading a resource, or opening the log, fails.
-/

namespace Docroot

inductive IoError
  | notFound
  | notADirectory
  | isADirectory
  | permissionDenied
  | nameTooLong
  | tooManyLinks
  | zeroInName
  | beyondContent
  | shorterThanRecorded
  | receiverGone
  | logAlreadyOpen
  | other (text : Text)
deriving DecidableEq

namespace IoError

def message : IoError → Text
  | notFound => "No such file or directory (os error 2)".toList
  | notADirectory => "Not a directory (os error 20)".toList
  | isADirectory => "Is a directory (os error 21)".toList
  | permissionDenied => "Permission denied (os error 13)".toList
  | nameTooLong => "File name too long (os error 36)".toList
  | tooManyLinks => "Too many levels of symbolic links (os error 40)".toList
  | zeroInName => "file name contained an unexpected NUL byte".toList
  | beyondContent => "range beyond content".toList
  | shorterThanRecorded => "resource shorter than its recorded length".toList
  | receiverGone => "response body receiver dropped".toList
  | logAlreadyOpen => "Log writer already initialized".toList
  | other text => text

/-- There is no object of that name. -/
def isAbsence : IoError → Bool
  | notFound => true
  | notADirectory => true
  | _ => false

end IoError

/-- Why a request is answered by an error reply. -/
inductive Failure
  | malformedPrecondition (reason : Text)
  | io (cause : IoError)
deriving DecidableEq

def Failure.message : Failure → Text
  | .malformedPrecondition reason => "malformed precondition header: ".toList ++ reason
  | .io cause => "I/O error: ".toList ++ cause.message

/-- Why the work on a request stops: it failed, or a time has no written form as a date. -/
inductive Abort
  | failed (failure : Failure)
  | undatable
deriving DecidableEq

end Docroot
