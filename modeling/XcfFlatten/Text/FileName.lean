/-!
# File names

The last part of a path, and the extension that tells a file's format. Slashes separate the parts of
a path, and a part that is a single dot does not count, except at the beginning.
-/

namespace XcfFlatten.FileName

/-- Drops slashes and single dots after slashes from the end of a path, which is given backwards. -/
def trimEnd : List Char → List Char
  | '/' :: rest => trimEnd rest
  | '.' :: '/' :: rest => trimEnd rest
  | path => path

/-- Splits a path in front of its last part. There is no last part in an empty path, nor where it is
a single or a double dot. -/
def split? (path : String) : Option (List Char × List Char) :=
  let backwards := trimEnd path.toList.reverse
  let name := backwards.takeWhile (· != '/')
  if name = [] ∨ name = ['.'] ∨ name = ['.', '.'] then none
  else some ((backwards.drop name.length).reverse, name.reverse)

/-- Splits a name in front of its last dot. A dot at the beginning does not count. -/
def splitExtension? (name : List Char) : Option (List Char × List Char) :=
  let extension := name.reverse.takeWhile (· != '.')
  let stem := name.take (name.length - (extension.length + 1))
  if stem = [] then none else some (stem, extension.reverse)

/-- The extension of a path's last part, without the dot. -/
def extension? (path : String) : Option String := do
  let (_, name) ← split? path
  let (_, extension) ← splitExtension? name
  pure (String.ofList extension)

/-- The path with the extension of its last part replaced, or added if there is none. Where only a
dot is in front of the extension, the two dots that are left name no file, and nothing can be added
to them. -/
def withExtension (path extension : String) : String :=
  match split? path with
  | none => path
  | some (directory, name) =>
    let stem := ((splitExtension? name).map Prod.fst).getD name
    if stem = ['.'] then String.ofList directory ++ ".."
    else String.ofList (directory ++ stem) ++ "." ++ extension

/-- The parts of a path, from the first to the last. -/
def parts (path : String) : List String :=
  ((path.toList.splitOn '/').filter (· ≠ [])).map String.ofList

end XcfFlatten.FileName
