import Std.Data.ExtTreeMap
import Tint.Files.Fault
import Tint.Files.Path
set_option autoImplicit false

/-!
# File trees

The files and directories that a run can see, by the names that lead to them from the root,
and the directory it works in.  Whatever is in a tree stands in a directory, and so the root and
the directory to work in are never files (`FileTree`); every operation here keeps this.

`read` and `write` follow a path name by name, as a system does: every name but the last must lead
to a directory, an empty name or a dot stays where it is, and two dots go up.  So what a path leads
to stands in a directory, if it exists or not (`node?_dropLast_of_locate`).  Files may be closed to
the user, directories are open to everyone.  Files change only by `write`, and that changes one file
(`node?_write_of_ne`).
-/

namespace Tint

/-- What stands at a place of a tree. -/
inductive FileNode where
  | directory
  /-- a file that holds a text -/
  | text (t : Text)
  /-- a file whose bytes are not UTF-8 -/
  | binary
  /-- a file that may not be opened -/
  | locked
  deriving DecidableEq, Repr, Inhabited

/-- A place, by the names that lead to it from the root. -/
abbrev Location := List Path

/-- Nodes by their places. -/
abbrev FileNodes := Std.ExtTreeMap Location FileNode

/-- What stands at a place; the root is a directory. -/
def FileNodes.at? (nodes : FileNodes) (place : Location) : Option FileNode :=
  if place = [] then some .directory else nodes[place]?

/-- Files and directories, and the directory to start from. -/
structure FileTree where
  nodes : FileNodes
  workingDirectory : Location
  /-- what stands anywhere stands in a directory -/
  isDirectory_parent : ∀ place name, nodes.at? (place ++ [name]) ≠ none →
    nodes.at? place = some .directory
  /-- the directory to start from is one -/
  isDirectory_workingDirectory : nodes.at? workingDirectory = some .directory

namespace FileTree

/-- The number of bytes that a path must stay below. -/
def pathLimit : Nat := 4096

/-- The number of bytes that a name may have. -/
def nameLimit : Nat := 255

/-- What stands at a place. -/
def node? (tree : FileTree) (place : Location) : Option FileNode := tree.nodes.at? place

/-! ## Where paths lead -/

/-- Follows names from a place.  What the last name leads to need not exist. -/
def follow (tree : FileTree) (place : Location) : List Path → Except Fault Location
  | [] => .ok place
  | name :: rest =>
    match tree.node? place with
    | none => .error .notFound
    | some .directory =>
      if name = [] ∨ name = Path.dot then tree.follow place rest
      else if name = Path.dots then tree.follow place.dropLast rest
      else if nameLimit < name.length then .error .nameTooLong
      else tree.follow (place ++ [name]) rest
    | some _ => .error .notADirectory

/-- The place that a path starts from. -/
def origin (tree : FileTree) (path : Path) : Location :=
  if Path.isAbsolute path then [] else tree.workingDirectory

/-- The place that a path leads to. -/
def locate (tree : FileTree) (path : Path) : Except Fault Location :=
  if path.contains 0 then .error .holdsNul
  else if path = [] then .error .notFound
  else if pathLimit ≤ path.length then .error .nameTooLong
  else tree.follow (tree.origin path) (Path.names path)

variable {tree : FileTree}

@[simp] theorem node?_nil : tree.node? [] = some .directory := rfl

theorem node?_origin (path : Path) : tree.node? (tree.origin path) = some .directory := by
  unfold origin
  split
  · exact node?_nil
  · exact tree.isDirectory_workingDirectory

/-- What stands anywhere stands in a directory. -/
theorem node?_dropLast {place : Location} (h : tree.node? place ≠ none) :
    tree.node? place.dropLast = some .directory := by
  rcases List.eq_nil_or_concat place with rfl | ⟨parent, name, rfl⟩
  · exact node?_nil
  · rw [List.concat_eq_append, List.dropLast_concat]
    exact tree.isDirectory_parent parent name (List.concat_eq_append ▸ h)

/-- A name is followed from a directory. -/
theorem follow_cons_eq_ok_iff {place target : Location} {name : Path} {rest : List Path} :
    tree.follow place (name :: rest) = .ok target ↔ tree.node? place = some .directory ∧
      if name = [] ∨ name = Path.dot then tree.follow place rest = .ok target
      else if name = Path.dots then tree.follow place.dropLast rest = .ok target
      else name.length ≤ nameLimit ∧ tree.follow (place ++ [name]) rest = .ok target := by
  cases hnode : tree.node? place with
  | none => simp [follow, hnode]
  | some node =>
    cases node with
    | text t => simp [follow, hnode]
    | binary => simp [follow, hnode]
    | locked => simp [follow, hnode]
    | directory =>
      simp only [follow, hnode, true_and]
      split
      · rfl
      · split
        · rfl
        · split
          · rename_i hlong
            simp [Nat.not_le.2 hlong]
          · rename_i hshort
            simp [Nat.not_lt.1 hshort]

/-- Names that are followed from a place in a directory lead to such a place again. -/
theorem node?_dropLast_of_follow {place target : Location} {names : List Path}
    (hplace : tree.node? place.dropLast = some .directory)
    (h : tree.follow place names = .ok target) : tree.node? target.dropLast = some .directory := by
  induction names generalizing place with
  | nil =>
    cases h
    exact hplace
  | cons name rest ih =>
    obtain ⟨hdirectory, h⟩ := follow_cons_eq_ok_iff.1 h
    split at h
    · exact ih hplace h
    · split at h
      · exact ih (node?_dropLast (by simp [hplace])) h
      · exact ih (by rw [List.dropLast_concat, hdirectory]) h.2

/-- A path that can be followed holds no NUL and is not too long. -/
theorem locate_eq_ok_iff {path : Path} {place : Location} :
    tree.locate path = .ok place ↔ path.contains 0 = false ∧ path ≠ [] ∧
      path.length < pathLimit ∧ tree.follow (tree.origin path) (Path.names path) = .ok place := by
  unfold locate
  split
  · simp_all
  · split
    · simp_all
    · split
      · rename_i hlong
        simp [Nat.not_lt.2 hlong]
      · rename_i hshort
        simp_all [Nat.not_le.1 hshort]

/-- What a path leads to stands in a directory, if it exists or not. -/
theorem node?_dropLast_of_locate {path : Path} {place : Location}
    (h : tree.locate path = .ok place) : tree.node? place.dropLast = some .directory :=
  node?_dropLast_of_follow (node?_dropLast (by simp [node?_origin])) (locate_eq_ok_iff.1 h).2.2.2

/-! ## Changes -/

theorem at?_insert {nodes : FileNodes} {place : Location} (h : place ≠ []) (node : FileNode)
    (other : Location) :
    FileNodes.at? (nodes.insert place node) other =
      if other = place then some node else nodes.at? other := by
  unfold FileNodes.at?
  split
  · rename_i hroot
    rw [if_neg (hroot ▸ Ne.symm h)]
  · simp only [Std.ExtTreeMap.getElem?_insert, Std.compare_eq_iff_eq]
    simp only [eq_comm]

/-- The tree with a node at a place in a directory where no directory stands. -/
def set (tree : FileTree) (place : Location) (node : FileNode)
    (hparent : tree.node? place.dropLast = some .directory)
    (hplace : tree.node? place ≠ some .directory) : FileTree where
  nodes := tree.nodes.insert place node
  workingDirectory := tree.workingDirectory
  isDirectory_parent := by
    have hroot : place ≠ [] := fun hnil => hplace (by rw [hnil, node?_nil])
    intro parent name hname
    rw [at?_insert hroot] at hname ⊢
    have hdirectory : tree.nodes.at? parent = some .directory := by
      split at hname
      · rename_i heq
        rwa [← heq, List.dropLast_concat] at hparent
      · exact tree.isDirectory_parent parent name hname
    have hne : parent ≠ place := fun heq => hplace (by rw [node?, ← heq, hdirectory])
    rw [if_neg hne, hdirectory]
  isDirectory_workingDirectory := by
    have hroot : place ≠ [] := fun hnil => hplace (by rw [hnil, node?_nil])
    have hdirectory := tree.isDirectory_workingDirectory
    have hne : tree.workingDirectory ≠ place := fun heq => hplace (by rw [node?, ← heq, hdirectory])
    rw [at?_insert hroot, if_neg hne, hdirectory]

theorem node?_set {place : Location} {node : FileNode}
    (hparent : tree.node? place.dropLast = some .directory)
    (hplace : tree.node? place ≠ some .directory) (other : Location) :
    (tree.set place node hparent hplace).node? other =
      if other = place then some node else tree.node? other :=
  at?_insert (fun hnil => hplace (by rw [hnil, node?_nil])) node other

/-- The text of the file at a path. -/
def read (tree : FileTree) (path : Path) : Except Fault Text :=
  match tree.locate path with
  | .error fault => .error fault
  | .ok place =>
    match tree.node? place with
    | none => .error .notFound
    | some .directory => .error .isADirectory
    | some .binary => .error .notUtf8
    | some .locked => .error .denied
    | some (.text t) => .ok t

/-- The tree after a text has been written to the file at a path, which need not exist
before.  It is inlined, so that a text that cannot be written is not made in the first place. -/
@[inline] def write (tree : FileTree) (path : Path) (t : Text) : Except Fault FileTree :=
  match h : tree.locate path with
  | .error fault => .error fault
  | .ok place =>
    if hplace : tree.node? place = some .directory then .error .isADirectory
    else if tree.node? place = some .locked then .error .denied
    else .ok (tree.set place (.text t) (node?_dropLast_of_locate h) hplace)

/-! ## Making trees -/

/-- The tree with a node at a place in a directory where nothing stands yet; a node cannot be added
at any other place. -/
def add (tree : FileTree) (place : Location) (node : FileNode) : FileTree :=
  if h : tree.node? place.dropLast = some .directory ∧ tree.node? place = none then
    tree.set place node h.1 (by simp [h.2])
  else tree

/-- The tree with a node at a place and directories on the way to it, where nothing stands yet. -/
def put (tree : FileTree) (place : Location) (node : FileNode) : FileTree :=
  let parents := (List.range place.length).map place.take
  (parents.foldl (fun tree parent => tree.add parent .directory) tree).add place node

/-- The tree with another directory to start from. -/
def enter (tree : FileTree) (place : Location) : FileTree :=
  if h : tree.node? place = some .directory then
    { tree with workingDirectory := place, isDirectory_workingDirectory := h }
  else tree

/-- The root alone. -/
def root : FileTree where
  nodes := ∅
  workingDirectory := []
  isDirectory_parent := fun place name h => by simp [FileNodes.at?] at h
  isDirectory_workingDirectory := rfl

/-- A tree with nothing but the directory to work in. -/
def empty (workingDirectory : Location) : FileTree :=
  (root.put workingDirectory .directory).enter workingDirectory

/-- The files of `after` that are not in `before`, or not with the same text. -/
def changes (before after : FileTree) : List (Location × Text) :=
  after.nodes.toList.filterMap fun entry =>
    match entry.2 with
    | .text t => if before.nodes[entry.1]? = some (.text t) then none else some (entry.1, t)
    | _ => none

/-! ## What writing changes -/

variable {after : FileTree} {path : Path} {t : Text}

/-- A text is written to a file that may be opened, or where nothing stands. -/
theorem of_write (h : tree.write path t = .ok after) :
    ∃ place hparent hplace, tree.locate path = .ok place ∧
      after = tree.set place (.text t) hparent hplace := by
  unfold write at h
  split at h
  · cases h
  · rename_i place hlocate
    split at h
    · cases h
    · split at h
      · cases h
      · exact ⟨place, _, _, hlocate, (Except.ok.inj h).symm⟩

theorem node?_write {place : Location} (h : tree.write path t = .ok after)
    (hplace : tree.locate path = .ok place) : after.node? place = some (.text t) := by
  obtain ⟨place', _, _, hplace', rfl⟩ := of_write h
  cases hplace.symm.trans hplace'
  rw [node?_set, if_pos rfl]

/-- Writing a file leaves all other places as they are. -/
theorem node?_write_of_ne {place other : Location} (h : tree.write path t = .ok after)
    (hplace : tree.locate path = .ok place) (hne : other ≠ place) :
    after.node? other = tree.node? other := by
  obtain ⟨place', _, _, hplace', rfl⟩ := of_write h
  cases hplace.symm.trans hplace'
  rw [node?_set, if_neg hne]

end FileTree

end Tint
