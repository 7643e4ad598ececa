import Tint.Files.FileTree
set_option autoImplicit false

/-!
# Reading what has been written

Writing a file makes and removes no directory, so paths lead after it where they led before
(`FileTree.locate_write`).  Then the file holds what was written, and the files at other places are
as they were (`FileTree.read_write`, `FileTree.read_write_of_ne`).  Files with different names in one
directory are at different places (`FileTree.locate_join`).

What can be read is a file, so the path to it ends in a name of its own, neither in a slash nor in
dots (`FileTree.exists_fileName?_of_read`).

What is written in sequence (`FileTree.Writes`) adds up: a file holds the last text that has been
written to it (`FileTree.Writes.read_last`), and every other place is as it was
(`FileTree.Writes.node?_of_ne`).
-/

namespace Tint

/-- The last place of a list where something holds. -/
theorem exists_of_getLast?_filter {α : Type} {p : α → Bool} {l : List α} {a : α}
    (h : (l.filter p).getLast? = some a) :
    ∃ before later, l = before ++ a :: later ∧ p a = true ∧ ∀ b ∈ later, p b = false := by
  obtain ⟨kept, hkept⟩ := List.getLast?_eq_some_iff.1 h
  obtain ⟨front, back, rfl, -, hback⟩ := List.filter_eq_append_iff.1 hkept
  obtain ⟨between, later, rfl, -, ha, hlater⟩ := List.filter_eq_cons_iff.1 hback
  refine ⟨front ++ between, later, by simp, ha, fun b hb => ?_⟩
  simpa using List.filter_eq_nil_iff.1 hlater b hb

namespace Path

/-- A name that neither stays where it is nor leads up nor is more than one name. -/
structure IsFileName (name : Path) : Prop where
  ne_nil : name ≠ []
  ne_dot : name ≠ dot
  ne_dots : name ≠ dots
  notMem : separator ∉ name

theorem isAbsolute_of_notMem {name : Path} (h : separator ∉ name) : isAbsolute name = false := by
  cases name with
  | nil => rfl
  | cons b rest =>
    have hb : b ≠ separator := fun heq => h (heq ▸ List.mem_cons_self)
    simp [isAbsolute, hb]

/-- The names of a path in a directory are those of the directory, less an empty one at their end,
and the last one. -/
theorem names_join (directory : Path) {name : Path} (h : separator ∉ name) :
    ∃ before, names (join directory name) = before ++ [name] ∧
      (directory ≠ [] → names directory = before ∨ names directory = before ++ [[]]) := by
  have hname : name.splitOn separator = [name] := List.splitOn_eq_singleton h
  unfold names join
  simp only [isAbsolute_of_notMem h, Bool.false_eq_true, false_or]
  split
  · rename_i hempty
    exact ⟨[], hname, fun hne => absurd hempty hne⟩
  · split
    · rename_i hslash
      obtain ⟨d, rfl⟩ := List.getLast?_eq_some_iff.1 hslash
      refine ⟨d.splitOn separator, ?_, fun _ => Or.inr ?_⟩
      · rw [List.append_assoc, List.singleton_append, List.splitOn_append_cons_self, hname]
      · rw [List.splitOn_append_cons_self, List.splitOn_nil]
    · exact ⟨_, by rw [List.splitOn_append_cons_self, hname], fun _ => Or.inl rfl⟩

theorem isPrefix_join (directory : Path) {name : Path} (h : separator ∉ name) :
    directory <+: join directory name := by
  unfold join
  simp only [isAbsolute_of_notMem h, Bool.false_eq_true, false_or]
  split
  · rename_i hempty
    exact hempty ▸ List.nil_prefix
  · split <;> exact List.prefix_append _ _

theorem isAbsolute_join {directory name : Path} (hne : directory ≠ []) (h : separator ∉ name) :
    isAbsolute (join directory name) = isAbsolute directory := by
  obtain ⟨tail, htail⟩ := isPrefix_join directory h
  obtain ⟨b, r, rfl⟩ := List.exists_cons_of_ne_nil hne
  rw [← htail]
  rfl

/-- No name holds the byte between names. -/
theorem notMem_of_mem_names {path name : Path} (h : name ∈ names path) : separator ∉ name := by
  unfold names at h
  induction path generalizing name with
  | nil =>
    rw [List.splitOn_nil, List.mem_singleton] at h
    rw [h]
    exact List.not_mem_nil
  | cons b rest ih =>
    rw [List.splitOn_cons_eq_if_modifyHead] at h
    split at h
    · rcases List.mem_cons.1 h with rfl | hrest
      · exact List.not_mem_nil
      · exact ih hrest
    · rename_i hb
      obtain ⟨first, later, hsplit⟩ :=
        List.exists_cons_of_ne_nil (List.splitOn_ne_nil separator rest)
      rw [hsplit, List.modifyHead_cons] at h
      rcases List.mem_cons.1 h with rfl | hlater
      · have hfirst := ih (hsplit ▸ List.mem_cons_self)
        simp only [List.mem_cons, not_or]
        exact ⟨fun heq => hb (by simp [← heq]), hfirst⟩
      · exact ih (hsplit ▸ List.mem_cons_of_mem first hlater)

/-- A last name that leads on is the name of the path. -/
theorem fileName?_of_names {path name : Path} {before : List Path}
    (h : names path = before ++ [name]) (hname : IsFileName name) : fileName? path = some name := by
  have hlast : ((names path).filter fun name => name != [] && name != dot).getLast? =
      some name := by
    rw [h, List.filter_append, List.filter_cons_of_pos (by simp [hname.ne_nil, hname.ne_dot])]
    exact List.getLast?_concat
  rw [fileName?, hlast]
  exact if_neg hname.ne_dots

end Path

namespace FileTree

variable {tree after : FileTree} {path : Path} {t : Text}

/-! ## Where paths lead -/

theorem isDirectory_write (h : tree.write path t = .ok after) (place : Location) :
    after.node? place = some .directory ↔ tree.node? place = some .directory := by
  obtain ⟨written, -, hnode, hwritten, -⟩ := of_write h
  by_cases heq : place = written
  · rw [heq, node?_write h hwritten]
    simp [hnode]
  · rw [node?_write_of_ne h hwritten heq]

theorem follow_write (h : tree.write path t = .ok after) {names : List Path}
    {place target : Location} :
    after.follow place names = .ok target ↔ tree.follow place names = .ok target := by
  induction names generalizing place with
  | nil => rfl
  | cons name rest ih => simp only [follow_cons_eq_ok_iff, isDirectory_write h, ih]

/-- After a file has been written, paths lead where they led before. -/
theorem locate_write (h : tree.write path t = .ok after) {other : Path} {place : Location} :
    after.locate other = .ok place ↔ tree.locate other = .ok place := by
  have horigin : after.origin other = tree.origin other := by
    obtain ⟨_, _, _, -, rfl⟩ := of_write h
    rfl
  rw [locate_eq_ok_iff, locate_eq_ok_iff, horigin, follow_write h]

/-! ## What files hold -/

theorem read_eq_ok_iff_node? {place : Location} (h : tree.locate path = .ok place) {held : Text} :
    tree.read path = .ok held ↔ tree.node? place = some (.text held) := by
  simp only [read, h]
  cases tree.node? place with
  | none => simp
  | some node => cases node <;> simp

theorem exists_locate_of_read {held : Text} (h : tree.read path = .ok held) :
    ∃ place, tree.locate path = .ok place := by
  unfold read at h
  split at h
  · cases h
  · exact ⟨_, ‹_›⟩

/-- The file holds what was written. -/
theorem read_write (h : tree.write path t = .ok after) : after.read path = .ok t := by
  obtain ⟨place, -, -, hplace, -⟩ := of_write h
  exact (read_eq_ok_iff_node? ((locate_write h).2 hplace)).2 (node?_write h hplace)

/-- A file at another place is left as it was. -/
theorem read_write_of_ne (h : tree.write path t = .ok after) {other : Path} {held : Text}
    {place otherPlace : Location} (hplace : tree.locate path = .ok place)
    (hother : tree.locate other = .ok otherPlace) (hne : otherPlace ≠ place) :
    after.read other = .ok held ↔ tree.read other = .ok held := by
  rw [read_eq_ok_iff_node? ((locate_write h).2 hother), read_eq_ok_iff_node? hother,
    node?_write_of_ne h hplace hne]

/-! ## Files of one directory -/

theorem follow_append_eq_ok_iff {names rest : List Path} {place target : Location} :
    tree.follow place (names ++ rest) = .ok target ↔
      ∃ between, tree.follow place names = .ok between ∧ tree.follow between rest = .ok target := by
  induction names generalizing place with
  | nil => simp [follow]
  | cons name names ih =>
    simp only [List.cons_append, follow_cons_eq_ok_iff, ih]
    split
    · simp [and_assoc]
    · split <;> simp [and_assoc]

/-- A file of a directory is at the place of its name in the place of the directory. -/
theorem locate_join {directory name : Path} {place : Location} (hname : Path.IsFileName name)
    (h : tree.locate (Path.join directory name) = .ok place) :
    ∃ parent, tree.node? parent = some .directory ∧ place = parent ++ [name] ∧
      (directory ≠ [] → tree.locate directory = .ok parent) := by
  obtain ⟨before, hnames, hbefore⟩ := Path.names_join directory hname.notMem
  obtain ⟨hnul, -, hshort, hfollow⟩ := locate_eq_ok_iff.1 h
  rw [hnames, follow_append_eq_ok_iff] at hfollow
  obtain ⟨parent, hparent, hlast⟩ := hfollow
  obtain ⟨hdirectory, hplace⟩ := follow_cons_eq_ok_iff.1 hlast
  rw [if_neg (not_or.2 ⟨hname.ne_nil, hname.ne_dot⟩), if_neg hname.ne_dots] at hplace
  obtain ⟨-, hplace⟩ := hplace
  cases hplace
  refine ⟨parent, hdirectory, rfl, fun hne => ?_⟩
  have hfront := Path.isPrefix_join directory hname.notMem
  have horigin : tree.origin (Path.join directory name) = tree.origin directory := by
    rw [origin, Path.isAbsolute_join hne hname.notMem, ← origin]
  rw [horigin] at hparent
  refine locate_eq_ok_iff.2 ⟨?_, hne, Nat.lt_of_le_of_lt hfront.length_le hshort, ?_⟩
  · rw [List.contains_eq_mem, decide_eq_false_iff_not] at hnul ⊢
    exact fun hmem => hnul (hfront.subset hmem)
  · rcases hbefore hne with hsame | hslash
    · rw [hsame, hparent]
    · -- the slash at the end of the directory asks for a directory, and stays there
      rw [hslash, follow_append_eq_ok_iff]
      refine ⟨parent, hparent, follow_cons_eq_ok_iff.2 ⟨hdirectory, ?_⟩⟩
      rw [if_pos (Or.inl rfl)]
      rfl

/-- A path that can be read has a file name, the name of its place in a directory. -/
theorem exists_fileName?_of_read {held : Text} (h : tree.read path = .ok held) :
    ∃ parent name, Path.fileName? path = some name ∧ Path.IsFileName name ∧
      tree.locate path = .ok (parent ++ [name]) := by
  obtain ⟨place, hplace⟩ := exists_locate_of_read h
  have hnode := (read_eq_ok_iff_node? hplace).1 h
  have hfile : tree.node? place ≠ some .directory := by simp [hnode]
  obtain ⟨-, -, -, hfollow⟩ := locate_eq_ok_iff.1 hplace
  obtain ⟨before, name, hnames⟩ :=
    (List.eq_nil_or_concat (Path.names path)).resolve_left (List.splitOn_ne_nil _ _)
  rw [List.concat_eq_append] at hnames
  rw [hnames, follow_append_eq_ok_iff] at hfollow
  obtain ⟨parent, -, hlast⟩ := hfollow
  obtain ⟨hdirectory, hlast⟩ := follow_cons_eq_ok_iff.1 hlast
  -- a last name that stays or leads up leads to a directory, and that is not the file
  split at hlast
  · cases hlast
    exact absurd hdirectory hfile
  · rename_i hstays
    split at hlast
    · cases hlast
      exact absurd (node?_dropLast (by simp [hdirectory])) hfile
    · rename_i hup
      cases hlast.2
      obtain ⟨hnil, hdot⟩ := not_or.1 hstays
      have hmem : name ∈ Path.names path := by simp [hnames]
      have hname : Path.IsFileName name := ⟨hnil, hdot, hup, Path.notMem_of_mem_names hmem⟩
      exact ⟨parent, name, Path.fileName?_of_names hnames hname, hname, hplace⟩

/-- Writing a file leaves the files of other names in its directory as they were. -/
theorem read_join_write_of_ne {directory name other : Path} {held : Text} (hname : Path.IsFileName name)
    (hother : Path.IsFileName other) (hne : other ≠ name)
    (h : tree.write (Path.join directory name) t = .ok after)
    (hread : tree.read (Path.join directory other) = .ok held) :
    after.read (Path.join directory other) = .ok held := by
  obtain ⟨place, -, -, hplace, -⟩ := of_write h
  obtain ⟨otherPlace, hotherPlace⟩ := exists_locate_of_read hread
  refine (read_write_of_ne h hplace hotherPlace fun hsame => ?_).2 hread
  obtain ⟨parent, -, hlast, -⟩ := locate_join hname hplace
  obtain ⟨otherParent, -, hotherLast, -⟩ := locate_join hother hotherPlace
  rw [hsame, hlast] at hotherLast
  exact hne (List.append_singleton_inj.1 hotherLast).2.symm

/-! ## Writing in sequence -/

/-- Texts are written under names into a directory, each into the tree that the one before has
left. -/
inductive Writes (directory : Path) : FileTree → List (Path × Text) → FileTree → Prop where
  | nil (tree : FileTree) : Writes directory tree [] tree
  | cons {tree next after : FileTree} {file : Path × Text} {later : List (Path × Text)}
      (first : tree.write (Path.join directory file.1) file.2 = .ok next)
      (others : Writes directory next later after) : Writes directory tree (file :: later) after

namespace Writes

variable {directory name : Path} {files : List (Path × Text)}

/-- What is written goes to places that the paths lead to from the start. -/
theorem exists_locate (h : Writes directory tree files after) {file : Path × Text}
    (hfile : file ∈ files) : ∃ place, tree.locate (Path.join directory file.1) = .ok place := by
  induction h with
  | nil tree => cases hfile
  | cons first _ ih =>
    rcases List.mem_cons.1 hfile with rfl | hlater
    · obtain ⟨place, -, -, hplace, -⟩ := of_write first
      exact ⟨place, hplace⟩
    · obtain ⟨place, hplace⟩ := ih hlater
      exact ⟨place, (locate_write first).1 hplace⟩

/-- Where nothing is written, nothing changes. -/
theorem node?_of_ne (h : Writes directory tree files after) {place : Location}
    (hne : ∀ file ∈ files, tree.locate (Path.join directory file.1) ≠ .ok place) :
    after.node? place = tree.node? place := by
  induction h with
  | nil tree => rfl
  | cons first _ ih =>
    obtain ⟨written, -, -, hwritten, -⟩ := of_write first
    have hother : place ≠ written := by
      rintro rfl
      exact hne _ List.mem_cons_self hwritten
    rw [ih fun file hfile hplace => hne file (List.mem_cons_of_mem _ hfile)
      ((locate_write first).1 hplace), node?_write_of_ne first hwritten hother]

/-- What is written leaves the files of other names alone. -/
theorem read_of_ne {held : Text} (h : Writes directory tree files after)
    (hfiles : ∀ file ∈ files, Path.IsFileName file.1) (hname : Path.IsFileName name)
    (hne : ∀ file ∈ files, file.1 ≠ name)
    (hread : tree.read (Path.join directory name) = .ok held) :
    after.read (Path.join directory name) = .ok held := by
  induction h with
  | nil tree => exact hread
  | cons first _ ih =>
    refine ih (fun file hfile => hfiles file (List.mem_cons_of_mem _ hfile))
      (fun file hfile => hne file (List.mem_cons_of_mem _ hfile)) ?_
    exact read_join_write_of_ne (hfiles _ List.mem_cons_self) hname
      (hne _ List.mem_cons_self).symm first hread

theorem read_append_cons {before later : List (Path × Text)} {file : Path × Text}
    (h : Writes directory tree (before ++ file :: later) after)
    (hfiles : ∀ other ∈ before ++ file :: later, Path.IsFileName other.1)
    (hlast : ∀ other ∈ later, other.1 ≠ file.1) :
    after.read (Path.join directory file.1) = .ok file.2 := by
  induction before generalizing tree with
  | nil =>
    cases h with
    | cons first others =>
      exact others.read_of_ne (fun other hother => hfiles other (List.mem_cons_of_mem _ hother))
        (hfiles _ List.mem_cons_self) hlast (read_write first)
  | cons top before ih =>
    cases h with
    | cons _ others =>
      exact ih others fun other hother => hfiles other (List.mem_cons_of_mem _ hother)

/-- The file of a name holds the last text that has been written under the name. -/
theorem read_last {file : Path × Text} (h : Writes directory tree files after)
    (hfiles : ∀ other ∈ files, Path.IsFileName other.1)
    (hlast : (files.filter (·.1 == name)).getLast? = some file) :
    after.read (Path.join directory name) = .ok file.2 := by
  obtain ⟨before, later, rfl, hname, hlater⟩ := exists_of_getLast?_filter hlast
  obtain rfl := beq_iff_eq.1 hname
  refine read_append_cons h hfiles fun other hother => ?_
  exact beq_eq_false_iff_ne.1 (hlater other hother)

end Writes

end FileTree

end Tint
