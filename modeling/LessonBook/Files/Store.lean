import LessonBook.Files.Path
import LessonBook.Text.Units
import LessonBook.Text.Utf8

/-!
A store of files: directories and files with bytes, by their paths. Operations
either change the store or fail with a cause and leave it as it is. So a store
stands for a file system whose names are valid Unicode, which has no links, and in
which a write that fails has changed nothing.
-/

namespace LessonBook

open Text

inductive FileEntry where
  | directory
  | file (content : List Utf8.Byte)
  deriving DecidableEq, Repr

inductive StorageCause where
  | missing
  | notDirectory
  | present
  | isDirectory
  deriving DecidableEq, Repr

namespace StorageCause

def code : StorageCause → String
  | missing => "ENOENT"
  | notDirectory => "ENOTDIR"
  | present => "EEXIST"
  | isDirectory => "EISDIR"

def description : StorageCause → String
  | missing => "no such file or directory"
  | notDirectory => "not a directory"
  | present => "file already exists"
  | isDirectory => "illegal operation on a directory"

end StorageCause

structure StorageError where
  cause : StorageCause
  operation : String
  path : Option FilePath := none
  deriving DecidableEq, Repr

namespace StorageError

def message (error : StorageError) : Text :=
  (error.cause.code ++ ": " ++ error.cause.description ++ ", " ++ error.operation).toList ++
    match error.path with
    | some path => " '".toList ++ path.toText ++ ['\'']
    | none => []

end StorageError

/-- Entries by path. The root is a directory and needs no entry. -/
abbrev FileStore := List (FilePath × FileEntry)

namespace FileStore

def find? (path : FilePath) : FileStore → Option FileEntry
  | [] => if path.isEmpty then some .directory else none
  | (held, entry) :: rest => if held = path then some entry else find? path rest

def put (path : FilePath) (entry : FileEntry) : FileStore → FileStore
  | [] => [(path, entry)]
  | (held, old) :: rest =>
      if held = path then (path, entry) :: rest else (held, old) :: put path entry rest

def isFile (store : FileStore) (path : FilePath) : Bool :=
  match store.find? path with
  | some (.file _) => true
  | _ => false

def absence (store : FileStore) (path : FilePath) : StorageCause :=
  if path.ancestors.any store.isFile then .notDirectory else .missing

/-- The names of the files in a directory, in the order of their 16-bit units. -/
def fileNames (store : FileStore) (directory : FilePath) : List Text :=
  let names := store.filterMap fun (path, _) =>
    if path.parent = directory && !path.isEmpty && store.isFile path then some path.name else none
  names.mergeSort fun first second => !unitsLess second first

def list (store : FileStore) (directory : FilePath) : Except StorageError (List Text) :=
  match store.find? directory with
  | some .directory => .ok (store.fileNames directory)
  | some (.file _) => .error ⟨.notDirectory, "scandir", some directory⟩
  | none => .error ⟨store.absence directory, "scandir", some directory⟩

def read (store : FileStore) (path : FilePath) : Except StorageError (List Utf8.Byte) :=
  match store.find? path with
  | some (.file content) => .ok content
  | some .directory => .error ⟨.isDirectory, "read", none⟩
  | none => .error ⟨store.absence path, "open", some path⟩

def makeDirectory (store : FileStore) (path : FilePath) : Except StorageError FileStore :=
  match store.find? path with
  | some .directory => .ok store
  | some (.file _) => .error ⟨.present, "mkdir", some path⟩
  | none =>
      match store.absence path with
      | .missing =>
          .ok (path.ancestors.foldl (fun made above =>
            if (made.find? above).isSome then made else made.put above .directory) store)
      | cause => .error ⟨cause, "mkdir", some path⟩

def write (store : FileStore) (path : FilePath) (content : List Utf8.Byte) :
    Except StorageError FileStore :=
  let fail (cause : StorageCause) : Except StorageError FileStore :=
    .error ⟨cause, "open", some path⟩
  if path.trimmed ≠ path then
    fail (if store.isFile path.trimmed then .notDirectory else .isDirectory)
  else
    match store.find? path with
    | some .directory => fail .isDirectory
    | some (.file _) => .ok (store.put path (.file content))
    | none =>
        match store.find? path.parent with
        | some .directory => .ok (store.put path (.file content))
        | some (.file _) => fail .notDirectory
        | none => fail (store.absence path)

/-- What is at the place of an operation, a failure with its cause, and the store behind it. -/
abbrev Outcome (Error Value : Type) := Except Error Value × FileStore

/-- Writes a file, and makes its directory first if nothing has its path. -/
def output (store : FileStore) (path : FilePath) (content : List Utf8.Byte) :
    Outcome StorageError Unit :=
  let made := if (store.find? path.parent).isSome then .ok store
    else store.makeDirectory path.parent
  match made with
  | .error error => (.error error, store)
  | .ok ready =>
      match ready.write path content with
      | .error error => (.error error, ready)
      | .ok written => (.ok (), written)

end FileStore

end LessonBook
