import RomLayout.Path

set_option autoImplicit false

/-!
Files and directories, found by walking a path step by step. Every step needs a
directory to start from, so `file/` and `file/.` fail where `file` succeeds.

A walk starts in the working directory or at the root. Nothing is stored above
the working directory unless it is written there.
-/

namespace RomLayout

inductive Fault where
  | notFound
  | notDirectory
  | isDirectory
  | nameTooLong
  | nulInName
  | tooLarge
  /-- Any other reason, in the words of the system. -/
  | other (reason : String)
  deriving DecidableEq

namespace Fault

def message : Fault → String
  | notFound => "No such file or directory (os error 2)"
  | notDirectory => "Not a directory (os error 20)"
  | isDirectory => "Is a directory (os error 21)"
  | nameTooLong => "File name too long (os error 36)"
  | nulInName => "file name contained an unexpected NUL byte"
  | tooLarge => "file too large to address"
  | other reason => reason

/-- The fault that has these words. -/
def ofMessage (message : String) : Fault :=
  match [notFound, notDirectory, isDirectory, nameTooLong, nulInName, tooLarge].find?
      (·.message == message) with
  | some fault => fault
  | none => other message

end Fault

inductive FileNode where
  | file (bytes : List UInt8)
  /-- A directory, and the room that it takes itself. -/
  | directory (size : UInt64)
  deriving DecidableEq

namespace FileNode

def isFile : FileNode → Bool
  | file _ => true
  | directory _ => false

def isDirectory : FileNode → Bool
  | file _ => false
  | directory _ => true

/-- Number of bytes, if it is an address. -/
def size? : FileNode → Except Fault UInt64
  | file bytes =>
      if bytes.length < UInt64.size then .ok bytes.length.toUInt64 else .error .tooLarge
  | directory size => .ok size

def bytes? : FileNode → Except Fault (List UInt8)
  | file bytes => .ok bytes
  | directory _ => .error .isDirectory

end FileNode

inductive Anchor where
  /-- The working directory, or the directory so many levels above it. -/
  | working (above : Nat)
  | root
  deriving DecidableEq

structure Place where
  anchor : Anchor
  names : List Name
  deriving DecidableEq

namespace Place

def up (place : Place) : Place :=
  match place.names with
  | [] =>
      match place.anchor with
      | .working above => ⟨.working (above + 1), []⟩
      | .root => place
  | _ :: _ => ⟨place.anchor, place.names.dropLast⟩

def child (place : Place) (name : Name) : Place := ⟨place.anchor, place.names ++ [name]⟩

/-- The places passed on the way down to a place. -/
def ancestors (place : Place) : List Place :=
  (List.range place.names.length).map fun count => ⟨place.anchor, place.names.take count⟩

/-- Whether a place is another one or stands below it. -/
def isWithin (inner outer : Place) : Bool :=
  inner.anchor == outer.anchor && outer.names.isPrefixOf inner.names

end Place

/-- How a program sees files: what a path leads to. -/
abbrev Lookup := Path → Except Fault FileNode

/-- Nodes that are stored. How much room a directory takes is up to the system. -/
structure FileSystem where
  nodes : List (Place × FileNode)
  directorySize : Place → UInt64

namespace FileSystem

def maxNameSize : Nat := 255

/-- A path must have fewer bytes. -/
def pathSizeLimit : Nat := 4096

def byteCount (characters : List Char) : Nat := (String.ofList characters).utf8ByteSize

def empty (directorySize : Place → UInt64) : FileSystem := ⟨[], directorySize⟩

/-- Every anchor is a directory. -/
def node? (files : FileSystem) (place : Place) : Option FileNode :=
  if place.names = [] then some (.directory (files.directorySize place))
  else files.nodes.lookup place

/-- One piece of a path, walked from a place. -/
def enter (files : FileSystem) (place : Place) (piece : Name) : Except Fault Place :=
  match files.node? place with
  | none => .error .notFound
  | some (.file _) => .error .notDirectory
  | some (.directory _) =>
      if Path.isBlank piece then .ok place
      else if piece = ['.', '.'] then .ok place.up
      else if maxNameSize < byteCount piece then .error .nameTooLong
      else match files.node? (place.child piece) with
        | none => .error .notFound
        | some _ => .ok (place.child piece)

def walk (files : FileSystem) (place : Place) (pieces : List Name) : Except Fault Place :=
  pieces.foldlM files.enter place

/-- What is wrong with the text of a path, before any walk. -/
def textFault? (path : Path) : Option Fault :=
  if '\x00' ∈ path.characters then some .nulInName
  else if path.characters = [] then some .notFound
  else if pathSizeLimit ≤ byteCount path.characters then some .nameTooLong
  else none

def start (path : Path) : Place := ⟨if path.isAbsolute then .root else .working 0, []⟩

def find (files : FileSystem) : Lookup := fun path =>
  match textFault? path with
  | some fault => .error fault
  | none =>
      match files.walk (start path) (Path.pieces path.characters) with
      | .error fault => .error fault
      | .ok place =>
          match files.node? place with
          | some node => .ok node
          | none => .error .notFound

def insert (files : FileSystem) (place : Place) (node : FileNode) : FileSystem :=
  { files with nodes := (place, node) :: files.nodes.filter (·.1 != place) }

/-- Takes away a node and all that stands below it. -/
def erase (files : FileSystem) (place : Place) : FileSystem :=
  { files with nodes := files.nodes.filter fun stored => !stored.1.isWithin place }

/-- The place that a path names, read off its text alone. -/
def placeOf (path : Path) : Place :=
  path.components.foldl
    (fun place component =>
      match component with
      | .root => ⟨.root, []⟩
      | .up => place.up
      | .name name => place.child name)
    ⟨.working 0, []⟩

def makeDirectory (files : FileSystem) (place : Place) : FileSystem :=
  files.insert place (.directory (files.directorySize place))

/-- Makes the directories that a place stands in, as far as they are missing. -/
def makeParents (files : FileSystem) (place : Place) : FileSystem :=
  (place.ancestors.filter fun parent => (files.node? parent).isNone).foldl makeDirectory files

/-- Whether a node can be stored at a place: it is no anchor, and no file is in its way. -/
def isFree (files : FileSystem) (place : Place) : Bool :=
  !place.names.isEmpty &&
    place.ancestors.all fun parent => ((files.node? parent).map FileNode.isFile) != some true

/-- Stores a node together with the directories that it stands in. A directory that is there
already stays as it is, with all that stands below it; anything else is replaced. Nothing
happens where no node can be stored. -/
def put (files : FileSystem) (path : Path) (node : FileNode) : FileSystem :=
  let place := placeOf path
  if files.isFree place then
    let grounded := files.makeParents place
    if node.isDirectory && (files.node? place).any FileNode.isDirectory then grounded
    else (grounded.erase place).insert place node
  else files

/-- An anchor cannot be deleted. -/
def delete (files : FileSystem) (path : Path) : FileSystem :=
  let place := placeOf path
  if place.names.isEmpty then files else files.erase place

/-- Splits the last name off the pieces of a path. The flag tells whether
separators follow the name. -/
def splitLast? (pieces : List Name) : Option (List Name × Name × Bool) :=
  match pieces.reverse with
  | [] => none
  | last :: before =>
      if last = [] then
        match before.dropWhile (· == []) with
        | [] => none
        | name :: others => some (others.reverse, name, true)
      else some (before.reverse, last, false)

/-- Where a file can be written under this path. Its directory has to be there
already. -/
def target (files : FileSystem) (path : Path) : Except Fault Place :=
  match textFault? path with
  | some fault => .error fault
  | none =>
      match splitLast? (Path.pieces path.characters) with
      | none => .error .isDirectory
      | some (before, name, separated) =>
          match files.walk (start path) before with
          | .error fault => .error fault
          | .ok place =>
              match files.node? place with
              | none => .error .notFound
              | some (.file _) => .error .notDirectory
              | some (.directory _) =>
                  if Path.isBlank name || name == ['.', '.'] || separated then
                    .error .isDirectory
                  else if maxNameSize < byteCount name then .error .nameTooLong
                  else match files.node? (place.child name) with
                    | some (.directory _) => .error .isDirectory
                    | _ => .ok (place.child name)

/-- Writes a whole file, or changes nothing. -/
def write (files : FileSystem) (path : Path) (bytes : List UInt8) : Except Fault FileSystem :=
  (files.target path).map fun place => files.insert place (.file bytes)

end FileSystem

end RomLayout
