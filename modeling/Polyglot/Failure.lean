import Polyglot.Disk
import Polyglot.Problem
import Polyglot.Text.Quoted

/-!
# Failures

What ends a run: a problem of the project itself, or a file or directory that cannot be used. A
failure of the second kind says what was tried and, after it, why it did not work.

* `Failure.chain`: the lines of that account, from the outside in.
* `Failure.message`: the account in one line.
-/

namespace Polyglot

inductive Failure where
  | problem (problem : Problem)
  | createDirectory (path : Path) (cause : DiskError)
  | writeFile (path : Path) (cause : DiskError)
  | listDirectory (path : Path) (cause : DiskError)
  | removeFile (path : Path) (cause : DiskError)
  | readSettings (path : Path) (cause : DiskError)
  | parseSettings (path : Path)
  | writeSettings (cause : DiskError)
  | noSuchDirectory (path : Path)
  | noDirectory (path : Path)
deriving DecidableEq, Repr

namespace Failure

/-- What was tried, and then why it failed. -/
def chain : Failure → List String
  | problem p => [p.message]
  | createDirectory path cause => ["Failed to create directory: " ++ path.shown, cause.message]
  | writeFile path cause => ["Failed to write file: " ++ path.shown, cause.message]
  | listDirectory path cause =>
    ["IO error for operation on " ++ path.shown ++ ": " ++ cause.message, cause.message]
  | removeFile path cause => ["Failed to remove file: " ++ path.shown, cause.message]
  | readSettings path cause =>
    ["Failed to read config file: " ++ showQuoted path.bytes, cause.message]
  | parseSettings path =>
    ["Failed to parse config file: " ++ showQuoted path.bytes, "not a valid configuration"]
  | writeSettings cause => ["Failed to write .elziirc.json", cause.message]
  | noSuchDirectory path =>
    ["Translations directory '" ++ path.shown ++ "' does not exist.\n" ++
      "Hint: Check your .elziirc.json 'translations' setting."]
  | noDirectory path => ["'" ++ path.shown ++ "' is not a directory."]

def message (f : Failure) : String :=
  ": ".intercalate f.chain

end Failure

end Polyglot
