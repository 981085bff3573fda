import DotMatrix.Cartridge.Checksum

namespace DotMatrix

inductive FileError
  | notFound
  | isDirectory
  | notDirectory
  | nameTooLong
  | other (code : Nat) (reason : String)
  deriving DecidableEq

def FileError.message : FileError → String
  | notFound => "No such file or directory (os error 2)"
  | isDirectory => "Is a directory (os error 21)"
  | notDirectory => "Not a directory (os error 20)"
  | nameTooLong => "File name too long (os error 36)"
  | other code reason => reason ++ " (os error " ++ toString code ++ ")"

inductive FileTree
  | file (contents : Image)
  | directory (entries : List (String × FileTree))

namespace FileTree

abbrev Entries := List (String × FileTree)

def nameLimit : Nat := 255

def pathLimit : Nat := 4095

def find (entries : Entries) (name : String) : Except FileError FileTree :=
  if name.utf8ByteSize ≤ nameLimit then (entries.lookup name).elim (.error .notFound) .ok
  else .error .nameTooLong

structure Place where
  here : Entries
  above : List Entries := []

namespace Place

def parent : Place → Place
  | ⟨_, up :: above⟩ => ⟨up, above⟩
  | ⟨root, []⟩ => ⟨root, []⟩

def enter (place : Place) (entries : Entries) : Place := ⟨entries, place.here :: place.above⟩

def root (place : Place) : Place := ⟨place.above.getLastD place.here, []⟩

/-- Follows names to a file. No name may come after it, not even an empty one. -/
def follow (place : Place) : List String → Except FileError Image
  | [] => .error .isDirectory
  | "" :: names => place.follow names
  | "." :: names => place.follow names
  | ".." :: names => place.parent.follow names
  | name :: names => do
    match ← find place.here name with
    | directory entries => (place.enter entries).follow names
    | file contents => if names.isEmpty then .ok contents else .error .notDirectory

def read (place : Place) (path : String) : Except FileError Image :=
  if path.utf8ByteSize ≤ pathLimit then
    match path.splitOn "/" with
    | [""] => .error .notFound
    | "" :: names => place.root.follow names
    | names => place.follow names
  else .error .nameTooLong

end Place

end FileTree

end DotMatrix
