import LessonBook.CommandLine

/-!
The program: copies the files that a run looks at into a store, runs on it, and
carries what has changed back to the disk.
-/

namespace LessonBook

open Text

namespace Disk

def nameOf (path : FilePath) : String :=
  String.ofList path.toText

def fetch (store : FileStore) (path : FilePath) : IO FileStore := do
  if (store.find? path).isSome then return store
  let place := (← IO.currentDir) / nameOf path
  if ← place.isDir then return store.put path .directory
  if ← place.pathExists then
    let bytes ← IO.FS.readBinFile place
    return store.put path (.file (bytes.toList.map UInt8.toNat))
  return store

def fetchWithParents (store : FileStore) (path : FilePath) : IO FileStore :=
  path.trimmed.ancestors.foldlM fetch store

def fetchDirectory (suffix : Text) (store : FileStore) (directory : FilePath) : IO FileStore := do
  let store ← fetchWithParents store directory
  let place := (← IO.currentDir) / nameOf directory
  unless ← place.isDir do return store
  let names := (← place.readDir).toList.map fun entry => entry.fileName.toList
  (names.filter (endsWith suffix)).foldlM (fun store name => fetch store (directory ++ [name])) store

def save (entry : FilePath × FileEntry) : IO Unit :=
  match entry with
  | (path, .directory) => IO.FS.createDir (nameOf path)
  | (path, .file content) => IO.FS.writeBinFile (nameOf path) ⟨(content.map UInt8.ofNat).toArray⟩

def saveChanges (before after : FileStore) : IO Unit :=
  after.forM fun entry =>
    unless before.find? entry.1 = some entry.2 do save entry

end Disk

namespace CommandLine

def surroundings : IO Surroundings := do
  let here ← IO.currentDir
  let configFile ← IO.getEnv configVariable
  return ⟨FilePath.resolve [] here.toString.toList, configFile.map String.toList⟩

/-- Everything on the disk that a run with these arguments looks at. -/
def fetchAll (surroundings : Surroundings) (arguments : Arguments) : IO FileStore := do
  let store ← Disk.fetchWithParents [] (configFilePath surroundings arguments.configPath)
  let loaded := (readConfig surroundings arguments.configPath store).1
  let .ok config := loaded.bind (effectiveConfig arguments.language) | return store
  let batch := batchOf surroundings arguments config
  let store ← Disk.fetchDirectory batch.inputSuffix store batch.inputDirectory
  let .ok names := batch.sources store | return store
  let results := Manifest.path batch.outputDirectory :: names.map batch.outputPath
  (batch.outputDirectory :: results).foldlM Disk.fetchWithParents store

end CommandLine

end LessonBook

open LessonBook in
def main (arguments : List String) : IO UInt32 := do
  let arguments := arguments.map String.toList
  let surroundings ← CommandLine.surroundings
  let store ← match Arguments.parse? arguments with
    | some parsed => CommandLine.fetchAll surroundings parsed
    | none => pure []
  let run := CommandLine.run surroundings arguments store
  Disk.saveChanges store run.store
  (← IO.getStdout).putStr (String.ofList (run.outputText false))
  (← IO.getStderr).putStr (String.ofList (run.outputText true))
  return run.exitCode.toUInt32
