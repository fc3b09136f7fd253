import HttpEngine.Lookup
import HttpEngine.Bytes

/-!
# Files and directories

A store of files, each with the names that lead to it and its content, and the directories that
exist.  Names are byte strings, since a name need not be a text.  The store is a list of entries in
which a path stands at most once.  A reference is the written form of a way through the directories:
names between slashes, among them single dots, which stay, and double dots, which go up.
-/

namespace HttpEngine

abbrev FileName := Bytes

abbrev Path := List FileName

def Path.ofNames (names : List String) : Path :=
  names.map Utf8.encode

inductive StorageError where
  | notFound
  | alreadyExists
  | notADirectory
  | isADirectory
  | nameTooLong
  | nulInName
  deriving DecidableEq, Repr

def StorageError.message : StorageError -> String
  | .notFound => "No such file or directory (os error 2)"
  | .alreadyExists => "File exists (os error 17)"
  | .notADirectory => "Not a directory (os error 20)"
  | .isADirectory => "Is a directory (os error 21)"
  | .nameTooLong => "File name too long (os error 36)"
  | .nulInName => "file name contained an unexpected NUL byte"

inductive Entry where
  /-- The bytes of a file, latest first, since bytes are added to the end. -/
  | file (latest : Bytes)
  | directory
  deriving DecidableEq, Repr

def Entry.ofContent (content : Bytes) : Entry :=
  .file content.reverse

structure Storage where
  entries : List (Path × Entry)
  nodup : (entries.map Prod.fst).Nodup
  deriving DecidableEq, Repr

namespace Storage

def empty : Storage := ⟨[], List.nodup_nil⟩

def get? (s : Storage) (path : Path) : Option Entry :=
  s.entries.lookup path

def file? (s : Storage) (path : Path) : Option Bytes :=
  match s.get? path with
  | some (.file latest) => some latest.reverse
  | _ => none

def isDirectory (s : Storage) (path : Path) : Bool :=
  match s.get? path with
  | some .directory => true
  | _ => false

def erase (s : Storage) (path : Path) : Storage where
  entries := s.entries.filter fun e => !(e.1 == path)
  nodup := (List.filter_sublist.map Prod.fst).nodup s.nodup

theorem fst_ne_of_mem_erase {s : Storage} {path : Path} {e : Path × Entry}
    (h : e ∈ (s.erase path).entries) : e.1 ≠ path := by
  simpa [erase] using (List.mem_filter.mp h).right

def put (s : Storage) (path : Path) (entry : Entry) : Storage where
  entries := (s.erase path).entries ++ [(path, entry)]
  nodup := by
    rw [List.map_append, List.nodup_append]
    refine And.intro (s.erase path).nodup (And.intro (List.pairwise_singleton _ path) ?_)
    intro a ha b hb
    cases List.mem_map.mp ha with
    | intro e he =>
        rw [List.mem_singleton.mp hb, ← he.right]
        exact fst_ne_of_mem_erase he.left

/-!
# What stands where

Both operations change what stands at their own path and nothing else.
-/

theorem get?_erase_self (s : Storage) (path : Path) : (s.erase path).get? path = none :=
  lookup_filter_self s.entries path

theorem get?_erase_of_ne (s : Storage) {path other : Path} (h : other ≠ path) :
    (s.erase path).get? other = s.get? other :=
  lookup_filter_of_ne s.entries h

theorem get?_put_self (s : Storage) (path : Path) (entry : Entry) :
    (s.put path entry).get? path = some entry := by
  simp [put, get?, List.lookup_append, erase, lookup_filter_self]

theorem file?_put_self (s : Storage) (path : Path) (content : Bytes) :
    (s.put path (.ofContent content)).file? path = some content := by
  rw [file?, get?_put_self]
  exact congrArg some (List.reverse_reverse content)

theorem get?_put_of_ne (s : Storage) {path other : Path} (entry : Entry) (h : other ≠ path) :
    (s.put path entry).get? other = s.get? other := by
  have hne : (other == path) = false := beq_false_of_ne h
  show ((s.erase path).entries ++ [(path, entry)]).lookup other = s.get? other
  rw [List.lookup_append, List.lookup_cons, hne, List.lookup_nil, Option.or_none]
  exact get?_erase_of_ne s h

/-! # Directories -/

def children (s : Storage) (directory : Path) : List (FileName × Entry) :=
  s.entries.filterMap fun (path, entry) =>
    match path.getLast? with
    | some name => if path.dropLast = directory then some (name, entry) else none
    | none => none

def names (s : Storage) (directory : Path) : List FileName :=
  (s.children directory).map Prod.fst

/-! # Operations -/

def read (s : Storage) (path : Path) : Except StorageError Bytes :=
  match s.get? path with
  | some (.file latest) => .ok latest.reverse
  | some .directory => .error .isADirectory
  | none => .error .notFound

def createNew (s : Storage) (path : Path) : Except StorageError Storage :=
  match s.get? path.dropLast with
  | none => .error .notFound
  | some (.file _) => .error .notADirectory
  | some .directory =>
      match s.get? path with
      | some _ => .error .alreadyExists
      | none => .ok (s.put path (.file []))

def remove (s : Storage) (path : Path) : Except StorageError Storage :=
  match s.get? path with
  | some (.file _) => .ok (s.erase path)
  | some .directory => .error .isADirectory
  | none => .error .notFound

def makeDirectory (s : Storage) (path : Path) : Except StorageError Storage :=
  match s.get? path with
  | some .directory => .ok s
  | some (.file _) => .error .alreadyExists
  | none => .ok (s.put path .directory)

def makeDirectories (s : Storage) (above : Path) : Path -> Except StorageError Storage
  | [] => .ok s
  | name :: rest => do
      let s <- s.makeDirectory (above ++ [name])
      s.makeDirectories (above ++ [name]) rest

def append (s : Storage) (path : Path) (content : Bytes) : Except StorageError Storage :=
  match s.get? path.dropLast with
  | some .directory =>
      match s.get? path with
      | some (.file latest) => .ok (s.put path (.file (content.reverse ++ latest)))
      | some .directory => .error .isADirectory
      | none => .ok (s.put path (.ofContent content))
  | some (.file _) => .error .notADirectory
  | none => .error .notFound

def list (s : Storage) (directory : Path) : Except StorageError (List FileName) :=
  match s.get? directory with
  | some .directory => .ok (s.names directory)
  | some (.file _) => .error .notADirectory
  | none => .error .notFound

/-! # References -/

def maxName : Nat := 255

/-- The longest way that is followed, in its written form from the top. -/
def maxWay : Nat := 4095

def writtenLength (path : Path) : Nat :=
  (path.map fun name => name.length + 1).foldr (· + ·) 0

def isAbsolute (reference : Bytes) : Bool :=
  reference.head? == some 47

def wayLength (directory : Path) (reference : Bytes) : Nat :=
  if isAbsolute reference then reference.length
  else writtenLength directory + 1 + reference.length

/--
Follows names from a path on.  Before any name is looked at, even an empty one behind a last slash,
a directory has to stand where the names before it lead.
-/
def follow (s : Storage) (here : Path) : List FileName -> Except StorageError Path
  | [] => .ok here
  | name :: rest =>
      match s.get? here with
      | none => .error .notFound
      | some (.file _) => .error .notADirectory
      | some .directory =>
          if name = [] ∨ name = [46] then s.follow here rest
          else if name = [46, 46] then s.follow here.dropLast rest
          else if maxName < name.length then .error .nameTooLong
          else s.follow (here ++ [name]) rest

def resolve (s : Storage) (directory : Path) (reference : Bytes) : Except StorageError Path :=
  if reference.contains 0 then .error .nulInName
  else if maxWay < wayLength directory reference then .error .nameTooLong
  else s.follow (if isAbsolute reference then [] else directory) (reference.splitOn 47)

def join (reference : Bytes) (name : FileName) : Bytes :=
  if reference = [] ∨ reference.getLast? = some 47 then reference ++ name
  else reference ++ 47 :: name

def readReference (s : Storage) (directory : Path) (reference : Bytes) :
    Except StorageError (Path × Bytes) := do
  let path <- s.resolve directory reference
  return (path, <- s.read path)

end Storage
end HttpEngine
