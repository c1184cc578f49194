import SelectorXPath.Text.Basic

namespace SelectorXPath

inductive FileEntry where
  | file (content : Bytes)
  | directory
deriving DecidableEq, Repr

abbrev TreePath := List Text

structure FileTree where
  entries : List (TreePath × FileEntry)
deriving DecidableEq, Repr

inductive FileError where
  | notFound
  | notDirectory
  | isDirectory
  | alreadyExists
  | nameTooLong
deriving DecidableEq, Repr

def FileError.message : FileError → Text
  | .notFound => "No such file or directory (os error 2)".toList
  | .notDirectory => "Not a directory (os error 20)".toList
  | .isDirectory => "Is a directory (os error 21)".toList
  | .alreadyExists => "File exists (os error 17)".toList
  | .nameTooLong => "File name too long (os error 36)".toList

def maxNameSize : Nat := 255

def maxPathSize : Nat := 4095

namespace FileTree

def empty : FileTree := ⟨[]⟩

def get? (tree : FileTree) (path : TreePath) : Option FileEntry :=
  match tree.entries.lookup path with
  | some entry => some entry
  | none =>
    if path.isEmpty || tree.entries.any fun entry => path.isPrefixOf entry.1 then some .directory
    else none

/-- The tree with an entry at a path, in place of all that stands at it, below it, or as a file
above it. -/
def put (tree : FileTree) (path : TreePath) (entry : FileEntry) : FileTree :=
  let inTheWay (old : TreePath × FileEntry) : Bool :=
    path.isPrefixOf old.1 || (old.1.isPrefixOf path && old.2 != .directory)
  ⟨(path, entry) :: tree.entries.filter fun old => !inTheWay old⟩

theorem get?_put_self (tree : FileTree) (path : TreePath) (entry : FileEntry) :
    (tree.put path entry).get? path = some entry := by
  simp [get?, put]

theorem get?_eq_none_iff {tree : FileTree} {path : TreePath} :
    tree.get? path = none ↔ path ≠ [] ∧ ∀ entry ∈ tree.entries, ¬ path <+: entry.1 := by
  unfold get?
  split
  · next entry h =>
    obtain ⟨before, after, he, -⟩ := List.lookup_eq_some_iff.mp h
    refine iff_of_false (by simp) fun hall => ?_
    exact hall.2 (path, entry) (by simp [he]) List.prefix_rfl
  · simp

theorem mem_entries_of_get?_file {tree : FileTree} {path : TreePath} {content : Bytes}
    (h : tree.get? path = some (.file content)) : (path, .file content) ∈ tree.entries := by
  unfold get? at h
  split at h
  · next entry hl =>
    obtain ⟨before, after, he, -⟩ := List.lookup_eq_some_iff.mp hl
    cases h
    simp [he]
  · split at h <;> cases h

theorem mem_entries_put {tree : FileTree} {path : TreePath} {entry : FileEntry}
    {old : TreePath × FileEntry} (h : old ∈ (tree.put path entry).entries) :
    old = (path, entry) ∨ ¬ path <+: old.1 ∧ (old.1 <+: path → old.2 = .directory) := by
  obtain h | h := List.mem_cons.mp h
  · exact .inl h
  · right
    have hkept := (List.mem_filter.mp h).2
    simp only [Bool.not_eq_true', Bool.or_eq_false_iff, Bool.and_eq_false_imp,
      bne_eq_false_iff_eq, List.isPrefixOf_iff_prefix] at hkept
    exact ⟨mt List.isPrefixOf_iff_prefix.mpr (by simp [hkept.1]), hkept.2⟩

theorem get?_append_eq_none {tree : FileTree} {path : TreePath} (below : TreePath)
    (h : tree.get? path = none) : tree.get? (path ++ below) = none := by
  rw [get?_eq_none_iff] at h ⊢
  refine ⟨by simp [h.1], fun entry hentry hbelow => ?_⟩
  exact h.2 entry hentry ((List.prefix_append path below).trans hbelow)

theorem get?_put_below (tree : FileTree) (path : TreePath) (entry : FileEntry) {below : TreePath}
    (h : below ≠ []) : (tree.put path entry).get? (path ++ below) = none := by
  refine get?_eq_none_iff.mpr ⟨by simp [h], fun old hold hbelow => ?_⟩
  obtain rfl | ⟨hpath, -⟩ := mem_entries_put hold
  · exact h (by simpa using hbelow.eq_of_length_le (by simp))
  · exact hpath ((List.prefix_append path below).trans hbelow)

theorem get?_put_above (tree : FileTree) {path above : TreePath} (entry : FileEntry)
    (h : above <+: path) (hne : above ≠ path) :
    (tree.put path entry).get? above = some .directory := by
  cases hget : (tree.put path entry).get? above with
  | none => exact absurd h ((get?_eq_none_iff.mp hget).2 (path, entry) (by simp [put]))
  | some found =>
    cases found with
    | directory => rfl
    | file content =>
      obtain hold | ⟨-, hold⟩ := mem_entries_put (mem_entries_of_get?_file hget)
      · exact absurd (congrArg Prod.fst hold) hne
      · cases hold h

def makeDirectories (tree : FileTree) (above : TreePath) :
    List Text → FileTree × Except FileError Unit
  | [] => (tree, .ok ())
  | name :: more =>
    match tree.get? (above ++ [name]) with
    | some (.file _) => (tree, .error (if more.isEmpty then .alreadyExists else .notDirectory))
    | some .directory => makeDirectories tree (above ++ [name]) more
    | none => makeDirectories (tree.put (above ++ [name]) .directory) (above ++ [name]) more

def write (tree : FileTree) (path : TreePath) (content : Bytes) :
    FileTree × Except FileError Unit :=
  match tree.get? path.dropLast, tree.get? path with
  | none, _ => (tree, .error .notFound)
  | some (.file _), _ => (tree, .error .notDirectory)
  | some .directory, some .directory => (tree, .error .isDirectory)
  | some .directory, _ => (tree.put path (.file content), .ok ())

inductive Place where
  | inside (path : TreePath)
  | outside
deriving DecidableEq, Repr

def isDirectory (tree : FileTree) : Place → Bool
  | .inside path => tree.get? path == some .directory
  | .outside => true

def step (tree : FileTree) (place : Place) (name : Text) : Except FileError Place :=
  if !tree.isDirectory place then .error .notDirectory
  else if name = [] ∨ name = ['.'] then .ok place
  else if maxNameSize < byteSize name then .error .nameTooLong
  else match place with
    | .outside => if name = ['.', '.'] then .ok .outside else .error .notFound
    | .inside path =>
      if name = ['.', '.'] then
        if path.isEmpty then .ok .outside else .ok (.inside path.dropLast)
      else if (tree.get? (path ++ [name])).isSome then .ok (.inside (path ++ [name]))
      else .error .notFound

def walk (tree : FileTree) : Place → List Text → Except FileError Place
  | place, [] => .ok place
  | place, name :: more =>
    match tree.step place name with
    | .ok next => walk tree next more
    | .error e => .error e

def resolve (tree : FileTree) (name : Text) : Except FileError Place :=
  if maxPathSize < byteSize name then .error .nameTooLong
  else match name with
    | [] => .error .notFound
    | '/' :: rest => tree.walk .outside (splitOnChar '/' rest)
    | _ => tree.walk (.inside []) (splitOnChar '/' name)

def find (tree : FileTree) (name : Text) : Except FileError FileEntry :=
  match tree.resolve name with
  | .error e => .error e
  | .ok .outside => .ok .directory
  | .ok (.inside path) =>
    match tree.get? path with
    | some entry => .ok entry
    | none => .error .notFound

end FileTree

def FileEntry.read : FileEntry → Except FileError Bytes
  | .file content => .ok content
  | .directory => .error .isDirectory

def pathNames (name : Text) : List Text :=
  (splitOnChar '/' name).filter fun part => !(part.isEmpty || part == ['.'])

def extensionOf (fileName : Text) : Option Text :=
  if fileName = ['.', '.'] then none
  else
    match (splitOnChar '.' fileName).reverse with
    | last :: before :: more => if before.isEmpty && more.isEmpty then none else some last
    | _ => none

def pathExtension (name : Text) : Option Text := (pathNames name).getLast?.bind extensionOf

end SelectorXPath
