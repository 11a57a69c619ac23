import DurableGraph.Disk.Device

/-!
# Directories

The files of one directory, by name.  A path leads to a file, or to a fault that says where
it goes astray.

    dir.read path = .ok image    exactly where the path ends at a file of the directory
-/

namespace DurableGraph

structure Directory where
  files : List (String × Image)

namespace Directory

def empty : Directory := ⟨[]⟩

def find? (dir : Directory) (name : String) : Option Image := dir.files.lookup name

/-- Puts a file into a directory, in place of one of the same name. -/
def put (dir : Directory) (name : String) (image : Image) : Directory :=
  ⟨(name, image) :: dir.files.filter fun file => file.1 ≠ name⟩

/-! ## Paths -/

/-- Whether a part of a path leads nowhere else. -/
def isDot (part : String) : Bool := part = "" || part = "."

/-- The bytes that the name of a file can have. -/
def nameLimit : Nat := 255

/-- Follows the parts of a path through directories of which nothing is known but that they
are there: every name is absent from them. -/
def followAway : List String → FileFault
  | [] => .isDirectory
  | part :: rest =>
    if isDot part || part = ".." then followAway rest
    else if nameLimit < part.utf8ByteSize then .nameTooLong
    else .absent

/-- Follows the parts of a path from this directory on. -/
def follow (dir : Directory) : List String → Except FileFault String
  | [] => .error .isDirectory
  | part :: rest =>
    if isDot part then dir.follow rest
    else if part = ".." then .error (followAway rest)
    else if nameLimit < part.utf8ByteSize then .error .nameTooLong
    else
      match dir.find? part with
      | none => .error .absent
      | some _ => if rest.isEmpty then .ok part else .error .notDirectory

/-- The name of the file that a path leads to.  An absolute path leads away from here. -/
def resolve (dir : Directory) (path : String) : Except FileFault String :=
  if path.toList.contains '\x00' then .error .zeroByteInName
  else if path.isEmpty then .error .absent
  else if 4096 ≤ path.utf8ByteSize then .error .nameTooLong
  else
    let parts := path.splitOn "/"
    if path.startsWith "/" then .error (followAway parts) else dir.follow parts

/-- Puts a file at a path that stays in this directory; at any other path nothing is put. -/
def create (dir : Directory) (path : String) (image : Image) : Directory :=
  match (path.splitOn "/").filter fun part => !isDot part with
  | [name] => if path.startsWith "/" || name = ".." then dir else dir.put name image
  | _ => dir

/-- The file that a path leads to. -/
def read (dir : Directory) (path : String) : Except FileFault Image :=
  match dir.resolve path with
  | .error fault => .error fault
  | .ok name => (dir.find? name).elim (.error .absent) .ok

/-- Stores buffers into the file that a path leads to. -/
def storeAll (dir : Directory) (path : String) (buffers : List Buffer) : Directory :=
  match dir.resolve path with
  | .error _ => dir
  | .ok name =>
    ⟨dir.files.map fun (other, image) =>
      (other, if other = name then image.storeAll buffers else image)⟩

end Directory

end DurableGraph
