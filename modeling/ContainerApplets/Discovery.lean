import ContainerApplets.Files.Calls

/-!
Fragment files are found in the root directory first, and then in the working directory and in each
directory above it up to, but not including, the root of the file system. In a directory they
come in the order of their names.
-/

namespace ContainerApplets

def fragmentEndings : List String := [".dbx.yaml", ".dbx.yml"]

/-- A name that is more than one of the endings. -/
def isFragmentName (name : String) : Bool :=
  fragmentEndings.any fun ending => ending.length < name.length && name.endsWith ending

/-- The path ends in such a name. A name that is not UTF-8, which no path here has, would be that
of no fragment. -/
def isFragment (path : String) : Bool := (Path.fileName? path).any isFragmentName

/-- The fragment files directly in a directory; one that cannot be read has none. -/
def fragmentsIn (files : Files) (directory : String) : List String :=
  match files.readNames directory with
  | .error _ => []
  | .ok names =>
      let found := names.filter fun name =>
        let path := Path.join directory name
        files.isFile path && isFragment path
      (found.mergeSort fun name next => decide (name ≤ next)).map (Path.join directory)

def searchedDirectories (root here : String) : List String :=
  let above := (Path.ancestors here).takeWhile fun directory => (Path.parent? directory).isSome
  above.foldl (fun found directory =>
    if found.any (Path.same directory) then found else found ++ [directory]) [root]

def discover (files : Files) (root here : String) : List String :=
  (searchedDirectories root here).flatMap (fragmentsIn files)

end ContainerApplets
