import LessonBook.Config
import LessonBook.Files.Store

/-!
The manifest of the runtime that shows the notebooks: the version of its layout,
and the name under which contents are stored, which depends on the language.
-/

namespace LessonBook

open Text

namespace Manifest

def fileName : Text := "jupyter-lite.json".toList

def storageName (language : Text) : Text :=
  "rss-".toList ++ language

def toJson (language : Text) : Json :=
  .object [("jupyter-lite-schema-version".toList, .ofNat 0),
    ("jupyter-config-data".toList,
      .object [("contentsStorageName".toList, .string (storageName language))])]

def toText (language : Text) : Text :=
  Json.pretty 2 (toJson language) ++ ['\n']

def path (directory : FilePath) : FilePath :=
  FilePath.join directory fileName

def write (directory : FilePath) (language : Text) (store : FileStore) :
    FileStore.Outcome StorageError FilePath :=
  match store.output (path directory) (Utf8.encode (toText language)) with
  | (.ok _, store) => (.ok (path directory), store)
  | (.error error, store) => (.error error, store)

end Manifest

end LessonBook
