import TraceReplay.CommandLine.File

/-! # Directories

What a path leads to, seen from a directory that holds given files. A path is followed part by
part. Nothing is known of what lies outside of the directory, except that its parents are there.
-/

namespace TraceReplay.CommandLine

/-- The files below a directory, with their paths. -/
abbrev Directory := List (List String × List UInt8)

namespace Directory

def maxPartSize : Nat := 255

def maxPathSize : Nat := 4095

def holds (d : Directory) (path : List String) : Bool :=
  d.any fun (file, _) => path.isPrefixOf file

/-- Follow the parts of a path from a place in the directory, or from a place outside of it. -/
def follow (d : Directory) : Option (List String) → List String → FileContent
  | _, [] => .directory
  | place, part :: rest =>
    if part = "" || part = "." then d.follow place rest
    else if part = ".." then
      d.follow (place.bind fun path => if path = [] then none else some path.dropLast) rest
    else if maxPartSize < part.utf8ByteSize then .nameTooLong
    else
      match place with
      | none => .absent
      | some path =>
        let path := path ++ [part]
        match d.lookup path with
        | some data => if rest = [] then .bytes data else .notDirectory
        | none => if d.holds path then d.follow (some path) rest else .absent

def look (d : Directory) (path : String) : FileContent :=
  if path = "" then .absent
  else if maxPathSize < path.utf8ByteSize then .nameTooLong
  else d.follow (if path.startsWith "/" then none else some []) (path.splitOn "/")

end Directory

end TraceReplay.CommandLine
