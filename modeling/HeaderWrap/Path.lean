/-! Paths of the file system as texts, their parts separated by slashes. -/
namespace HeaderWrap.Path

def isAbsolute (path : String) : Bool := path.toList.head? == some '/'

def endsInSlash (path : String) : Bool := path.toList.getLast? == some '/'

/-- A path taken from a directory. An absolute path stays as it is; an empty one gives the
directory with a slash behind it. -/
def join (base path : String) : String :=
  if isAbsolute path then path
  else if base = "" || endsInSlash base then base ++ path
  else base ++ "/" ++ path

def parts (path : String) : List (List Char) :=
  ((if isAbsolute path then path.toList.drop 1 else path.toList).splitOn '/').reverse

private def ofParts (absolute : Bool) (parts : List (List Char)) : String :=
  String.ofList ((if absolute then ['/'] else []) ++ List.intercalate ['/'] parts.reverse)

/-- Whether a part names nothing: an empty one, or a dot that is not in front of a relative path.
`rest` are the parts before it. -/
def isVoid (absolute : Bool) (part : List Char) (rest : List (List Char)) : Bool :=
  part == [] || (part == ['.'] && (absolute || !rest.isEmpty))

private def dropVoid (absolute : Bool) : List (List Char) → List (List Char)
  | [] => []
  | part :: rest =>
    if isVoid absolute part rest then dropVoid absolute rest
    else part :: rest

/-- The path of the directory that holds what a path names; nothing for a root and for an empty
path. -/
def parent? (path : String) : Option String :=
  let absolute := isAbsolute path
  match dropVoid absolute (parts path) with
  | [] => none
  | _ :: rest => some (ofParts absolute (dropVoid absolute rest))

private def directoriesOf (absolute : Bool) : List (List Char) → List String
  | [] => []
  | part :: rest =>
    if isVoid absolute part rest then directoriesOf absolute rest
    else ofParts absolute (part :: rest) :: directoriesOf absolute rest

/-- A directory, by the path as it is given, and those it lies in, as far as the path names them. -/
def directories (path : String) : List String :=
  let absolute := isAbsolute path
  if path = "" then [] else path :: directoriesOf absolute ((dropVoid absolute (parts path)).drop 1)

/-- Whether the last part is a dot or two, so that the path names a directory but not its entry in
the one above. -/
def endsInDots (path : String) : Bool :=
  ((parts path).find? (· ≠ [])).all fun part => part = ['.'] || part = ['.', '.']

private def fileName? (path : String) : Option String :=
  match dropVoid (isAbsolute path) (parts path) with
  | [] => none
  | name :: _ => if name = ['.'] ∨ name = ['.', '.'] then none else some (String.ofList name)

/-- What follows the last dot of the file name. A name that only begins with a dot has no
extension. -/
def extension? (path : String) : Option String := do
  let name := (← fileName? path).toList.reverse
  let _ :: stem := name.dropWhile (· ≠ '.') | none
  if stem = [] then none else some (String.ofList (name.takeWhile (· ≠ '.')).reverse)

end HeaderWrap.Path
