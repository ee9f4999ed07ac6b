import Mathlib.Data.List.Infix

namespace Kernel.FileSystem

/-- A `std::string`, as the list of its bytes. -/
abbrev Path := List Char

namespace Path

def MAX_PATH_LENGTH : Nat := 4096

def MAX_NAME_LENGTH : Nat := 255

def invalidChars : Path := "<>:\"|?*".toList

def reserved : List Path :=
  ["CON", "PRN", "AUX", "NUL", "COM1", "COM2", "COM3", "LPT1", "LPT2", "LPT3", "CLOCK$"].map String.toList

/-- The items that `std::getline` reads up to each '/'. There is an empty one
more after a last '/', but the loops over them skip the empty items. -/
def items (path : Path) : List Path := path.splitOn '/'

/-- The body of the loop of `normalizePath`. -/
def pushItem (components : List Path) (item : Path) : List Path :=
  if item.isEmpty ∨ item = ['.'] then components
  else if item = ['.', '.'] then components.dropLast
  else components ++ [item]

def normalizePath (path : Path) : Path :=
  let result := (if path.head? = some '/' then ['/'] else []) ++ ['/'].intercalate (path.items.foldl pushItem [])
  if result.isEmpty then ['/'] else result

/-- The checks that `validatePath` makes on one component. -/
def componentValid (component : Path) : Bool :=
  component.isEmpty ∨ component.length ≤ MAX_NAME_LENGTH ∧ component.map Char.toUpper ∉ reserved

end Path

end Kernel.FileSystem
