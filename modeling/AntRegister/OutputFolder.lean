import AntRegister.Documents
/-!
The folder that receives scripts. A file is first written as a draft beside it and then moved into
place, so that a reader finds the old content or the new one. Files that earlier runs wrote and this
one did not are removed, and only they.
-/

namespace AntRegister

structure OutputFolder where
  path : String

namespace OutputFolder

def draft (path : String) : String := Path.withExtension path "sql.tmp"

/-- The number of bytes from which on a text is written at once. A shorter one is kept back until the
writer is flushed. -/
def bufferSize : Nat := 8192

/-- The failure to write a text to a draft. -/
def notWritten (draft content : String) (fault : Fault) : Failure :=
  if content.utf8ByteSize < bufferSize then .draftNotFlushed fault
  else .draftNotWritten draft fault

def write (folder : OutputFolder) (name content : String) : Action String := do
  Action.ofExcept (.folderNotMade folder.path) (← Action.request (.makeFolders folder.path))
  let path := Path.join folder.path name
  let draft := draft path
  Action.ofExcept (.draftNotOpened draft) (← Action.request (.createFile draft))
  Action.ofExcept (.draftNotLocked draft) (← Action.request (.lockFile draft))
  Action.ofExcept (notWritten draft content) (← Action.request (.writeFile draft content))
  Action.ofExcept (.notRenamed draft path) (← Action.request (.rename draft path))
  return path

/-- Writes files in order, up to the first that cannot be written. -/
def writeAll (folder : OutputFolder) (files : List (String × String)) : Action (List String) :=
  files.mapM fun f => folder.write f.1 f.2

/-- Removes a file if it is there. -/
def removeFile? (folder : OutputFolder) (name : String) : Action (Option String) := do
  let path := Path.join folder.path name
  if ← Action.request (.isFile path) then
    Action.ofExcept (.notRemoved path) (← Action.request (.removeFile path))
    return some path
  else return none

/-- Removes the files among `owned` that are not in `keep`, and gives their paths. -/
def removeStale (folder : OutputFolder) (owned keep : List String) : Action (List String) := do
  let stale := owned.filter fun name => !keep.contains name
  return (← stale.mapM folder.removeFile?).filterMap id

end OutputFolder

end AntRegister
