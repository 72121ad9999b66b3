import Checkout.FileSystem.Basic

/-!
# Edits

The difference between two states of the file system as a list of edits: what is gone is removed from
the inside out, then what is new or different is made from the outside in. Symbolic links are never
edited, since no operation on a working copy makes one or removes one.
-/

namespace Checkout

/-- A step from one state of the file system towards another. -/
inductive Edit where
  /-- Takes a file away. -/
  | removeFile (location : Location)
  /-- Takes an empty directory away. -/
  | removeDirectory (location : Location)
  /-- Makes a directory. -/
  | makeDirectory (location : Location)
  /-- Puts a file in place, whether or not there was one. -/
  | putFile (location : Location) (bytes : ByteArray)

namespace FileSystem

/-- Whether a state has an entry of another one, with the same bytes if it is a file. -/
def agreesOn (files other : FileSystem) (location : Location) (node : Node) : Bool :=
  files.node? location = some node && match node with
    | .file identity => files.bytes identity == other.bytes identity
    | _ => true

/-- What has to be removed. -/
def removals (before after : FileSystem) : List Edit :=
  before.nodes.reverse.filterMap fun (location, node) =>
    if (after.node? location).isSome then none
    else match node with
      | .directory => some (.removeDirectory location)
      | .file _ => some (.removeFile location)
      | .link _ => none

/-- What has to be made. -/
def additions (before after : FileSystem) : List Edit :=
  after.nodes.filterMap fun (location, node) =>
    if before.agreesOn after location node then none
    else match node with
      | .directory => some (.makeDirectory location)
      | .file identity => some (.putFile location (after.bytes identity))
      | .link _ => none

/-- The edits that lead from one state to another. -/
def edits (before after : FileSystem) : List Edit :=
  removals before after ++ additions before after

end FileSystem

end Checkout
