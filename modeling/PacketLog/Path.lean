/-!
# Paths

A path is a text of components between slashes.
-/

namespace PacketLog.Path

/-- The components, without empty ones. -/
def components (path : String) : List String :=
  (path.splitOn "/").filter fun component => component ≠ ""

/-- Whether the path says that what it names is a directory. -/
def slashed (path : String) : Bool := path.endsWith "/"

def isAbsolute (path : String) : Bool := path.startsWith "/"

def push (path component : String) : String :=
  if slashed path then path ++ component else path ++ "/" ++ component

/-- Where an absolute path starts: exactly two leading slashes are kept, any other number is one. -/
def rootOf (path : String) : String :=
  if path.startsWith "//" ∧ ¬ path.startsWith "///" then "//" else "/"

/-- What a path starts from: its root, or the working directory, if that has a path. -/
def base? (current? : Option String) (path : String) : Option String :=
  if isAbsolute path then some (rootOf path) else current?

/-- The path from `base` on, without looking at any file: components that are a dot go, a double
dot and a trailing slash stay. -/
def extend (base path : String) : String :=
  let joined := ((components path).filter fun component => component ≠ ".").foldl push base
  if slashed path then push joined "" else joined

end PacketLog.Path
