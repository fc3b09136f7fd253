import HttpEngine.AccessLog.Queue
import HttpEngine.Storage

/-!
# Writing the access log

Every day has a directory with one file.  The writer keeps the file of the last line open and opens
another one when the day changes.  After a failure no file is open, and the line is lost.
-/

namespace HttpEngine

structure LogWriter where
  root : Path
  openDay : Option String
  deriving DecidableEq, Repr

namespace LogWriter

def fileName : FileName := Utf8.encode "server.log"

def new (root : Path) : LogWriter := ⟨root, none⟩

def directory (w : LogWriter) (day : String) : Path :=
  w.root ++ [Utf8.encode day]

def file (w : LogWriter) (day : String) : Path :=
  w.directory day ++ [fileName]

def openFor (w : LogWriter) (storage : Storage) (day : String) :
    Except StorageError (LogWriter × Storage) :=
  if w.openDay = some day then .ok (w, storage)
  else do
    let storage <- storage.makeDirectories [] (w.directory day)
    let storage <- storage.append (w.file day) []
    return ({ w with openDay := some day }, storage)

def write (w : LogWriter) (storage : Storage) (line : LogLine) :
    LogWriter × Storage × List Event :=
  match w.openFor storage line.day with
  | .error _ => ({ w with openDay := none }, storage, [.logFailed])
  | .ok (w, opened) =>
      match opened.append (w.file line.day) (Utf8.encode line.text) with
      | .ok storage => (w, storage, [])
      | .error _ => ({ w with openDay := none }, opened, [.logFailed])

def writeAll (w : LogWriter) (storage : Storage) :
    List LogLine -> LogWriter × Storage × List Event
  | [] => (w, storage, [])
  | line :: rest =>
      let (w, storage, events) := w.write storage line
      let (w, storage, more) := w.writeAll storage rest
      (w, storage, events ++ more)

end LogWriter
end HttpEngine
