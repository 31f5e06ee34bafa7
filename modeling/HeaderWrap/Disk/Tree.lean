import HeaderWrap.Disk
import HeaderWrap.Table
import HeaderWrap.Text.Position

/-! File trees in memory, with a working directory and without links or permissions. -/
namespace HeaderWrap
open Disk

inductive FileNode where
  | directory
  | file (bytes : ByteArray)

abbrev Place := List String

structure FileTree where
  /-- Where relative paths begin. -/
  workingDirectory : Place
  nodes : Table Place FileNode

namespace FileTree

def above (place : Place) : List Place := (List.range (place.length + 1)).map place.take

def empty (workingDirectory : Place) : FileTree :=
  ⟨workingDirectory, Table.ofList ((above workingDirectory).map (·, .directory))⟩

def node? (t : FileTree) (place : Place) : Option FileNode := t.nodes.get? place

private def maxName : Nat := 255

private def maxPath : Nat := 4095

def enter (t : FileTree) (here : Place) (part : String) : Except Fault Place :=
  match t.node? here with
  | none => .error .absent
  | some (.file _) => .error .notDirectory
  | some .directory =>
    if part = "." then .ok here
    else if part = ".." then .ok here.dropLast
    else if maxName < Text.byteLength part.toList then .error .longName
    else .ok (here ++ [part])

def partsOf (path : String) : Except Fault (List String) :=
  if path = "" then .error .absent
  else if path.toList.contains '\x00' then .error .nulInName
  else if maxPath < Text.byteLength path.toList then .error .longName
  else .ok (((Path.parts path).reverse.map String.ofList).filter (· ≠ ""))

def follow (t : FileTree) (path : String) (parts : List String) : Except Fault Place :=
  parts.foldlM t.enter (if Path.isAbsolute path then [] else t.workingDirectory)

def locate (t : FileTree) (path : String) : Except Fault Place := do
  t.follow path (← partsOf path)

/-- What is at the end of a path. A slash at the end asks for a directory. -/
def find (t : FileTree) (path : String) : Except Fault FileNode := do
  match t.node? (← t.locate path), Path.endsInSlash path with
  | none, _ => throw .absent
  | some (.file _), true => throw .notDirectory
  | some node, _ => return node

def read (t : FileTree) (path : String) : Except Fault String := do
  match ← t.find path with
  | .directory => throw .isDirectory
  | .file bytes =>
    match String.fromUTF8? bytes with
    | some text => return text
    | none => throw .notText

/-- Puts bytes into a file. A path with a slash at the end is that of a directory, whatever its last
name, if the one above is there. -/
def write (t : FileTree) (path : String) (bytes : ByteArray) : Except Fault FileTree := do
  if Path.endsInSlash path then
    let _ ← t.follow path ((← partsOf path).dropLast ++ ["."])
    throw .isDirectory
  let place ← t.locate path
  match t.node? place with
  | some .directory => throw .isDirectory
  | _ => return { t with nodes := t.nodes.insert place (.file bytes) }

def createDirectory (t : FileTree) (path : String) : Except Fault FileTree := do
  let place ← t.locate path
  match t.node? place with
  | some _ => throw .present
  | none => return { t with nodes := t.nodes.insert place .directory }

def isDirectory (t : FileTree) (path : String) : Bool :=
  match t.find path with
  | .ok .directory => true
  | _ => false

def isPresent (t : FileTree) (path : String) : Bool := (t.find path).toBool

def change (f : FileTree → Except Fault FileTree) : StateM FileTree (Except Fault Unit) := fun t =>
  match f t with
  | .ok t' => (.ok (), t')
  | .error e => (.error e, t)

instance : Disk (StateM FileTree) where
  readText path := return (← get).read path
  writeText path text := change (·.write path text.toUTF8)
  createDirectory path := change (·.createDirectory path)
  isDirectory path := return (← get).isDirectory path
  isPresent path := return (← get).isPresent path

/-- Removes what is at the end of a path, and all that is in it. A directory that the path does not
name by its entry stays, with nothing in it. -/
def remove (t : FileTree) (path : String) : FileTree :=
  match t.locate path, t.find path with
  | .ok place, .ok _ =>
    let goes (inner : Place) :=
      place.isPrefixOf inner && (inner ≠ place || !Path.endsInDots path)
    { t with nodes := t.nodes.filterKeys (!goes ·) }
  | _, _ => t

private def relative? (t : FileTree) (place : Place) (node : FileNode) : Option (String × FileNode) :=
  match t.workingDirectory.isPrefixOf place, place.drop t.workingDirectory.length with
  | false, _ | _, [] => none
  | true, names =>
    let path := String.intercalate "/" names
    some (match node with
      | .directory => (path ++ "/", node)
      | .file _ => (path, node))

def listing (t : FileTree) : List (String × FileNode) :=
  (t.nodes.entries.filterMap fun (place, node) => t.relative? place node).mergeSort
    fun a b => a.1 ≤ b.1

end FileTree
end HeaderWrap
