import Bindery.Text.Basic

/-! Paths of files: steps with slashes between them. -/

namespace Bindery.Path
open Text

/-- Steps that lead somewhere: neither empty nor a single point. -/
def steps (path : Text) : List Text :=
  (path.splitOn '/').filter fun step => !step.isEmpty && step ≠ ['.']

/-- The slashes in front of an absolute path. Exactly two have a meaning of their own. -/
def root (path : Text) : Text :=
  if startsWith "//" path && !startsWith "///" path then "//"
  else if startsWith "/" path then "/"
  else []

def ofSteps (root : Text) (steps : List Text) : Text :=
  let path := root ++ join ['/'] steps
  if path.isEmpty then ['.'] else path

def normalize (path : Text) : Text :=
  ofSteps (root path) (steps path)

/-- A path as seen from a directory. An absolute one leaves the directory. -/
def within (directory path : Text) : Text :=
  if (root path).isEmpty then ofSteps (root directory) (steps directory ++ steps path) else normalize path

def parent (path : Text) : Text :=
  ofSteps (root path) (steps path).dropLast

/-- The ending of the last step from its last point on, unless the step begins or ends there. -/
def ending (path : Text) : Text :=
  let name := (steps path).getLastD []
  let after := (name.reverse.takeWhile (· ≠ '.')).reverse
  let before := name.length - after.length
  if before ≤ 1 || after.isEmpty then [] else '.' :: after

end Bindery.Path
