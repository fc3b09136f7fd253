import HttpEngine.AccessLog.Writer

/-!
# The task that writes the access log

Connections record lines at any time, while one task takes the lines from the queue and writes each
of them before it takes the next one.  In between, others may change the store, but they leave the
files of the log as they are.  To make a file ready can also fail for a reason that the store does
not show, such as missing rights.
-/

namespace HttpEngine
namespace LogWriter

def writeTo (w : LogWriter) (storage : Storage) (line : LogLine) :
    Except StorageError (LogWriter × Storage) -> LogWriter × Storage × List Event
  | .error _ => ({ w with openDay := none }, storage, [.logFailed])
  | .ok (w, opened) =>
      match opened.append (w.file line.day) (Utf8.encode line.text) with
      | .ok storage => (w, storage, [])
      | .error _ => ({ w with openDay := none }, opened, [.logFailed])

theorem write_eq (w : LogWriter) (storage : Storage) (line : LogLine) :
    w.write storage line = w.writeTo storage line (w.openFor storage line.day) :=
  rfl

/-- What can come of making a file ready; one that is open needs no attempt. -/
def CanMake (w : LogWriter) (storage : Storage) (day : String)
    (made : Except StorageError (LogWriter × Storage)) : Prop :=
  made = w.openFor storage day ∨ (w.openDay ≠ some day ∧ exists e, made = .error e)

/-- Others have changed the store, but no file of the log and no directory with one. -/
def Leaves (w : LogWriter) (before after : Storage) : Prop :=
  forall day, after.file? (w.file day) = before.file? (w.file day) ∧
    (after.file? (w.file day) ≠ none -> after.get? (w.directory day) = some .directory)

end LogWriter

structure LogTask where
  queue : LogQueue
  inHand : Option LogLine
  writer : LogWriter
  storage : Storage
  deriving DecidableEq, Repr

namespace LogTask

def start (root : Path) (capacity : Nat) (storage : Storage) : LogTask :=
  ⟨.new capacity, none, .new root, storage⟩

inductive Action where
  | record (line : LogLine) (hasRoom : Bool)
  | take
  | write (line : LogLine) (isReady : Bool)
  | change (storage : Storage)
  deriving DecidableEq, Repr

inductive Step : LogTask -> Action -> LogTask -> Prop where
  | record {t : LogTask} (entry : LogEntry) (time : Nat) :
      Step t (.record (entry.line (.ofUnix time)) (t.queue.lines.length < t.queue.capacity))
        { t with queue := (t.queue.record entry time).1 }
  | take {t : LogTask} {line : LogLine} {queue : LogQueue} :
      t.inHand = none -> t.queue.take? = some (line, queue) ->
      Step t .take { t with queue, inHand := some line }
  | write {t : LogTask} {line : LogLine} {made : Except StorageError (LogWriter × Storage)} :
      t.inHand = some line -> t.writer.CanMake t.storage line.day made ->
      Step t (.write line made.isOk)
        { t with
          inHand := none
          writer := (t.writer.writeTo t.storage line made).1
          storage := (t.writer.writeTo t.storage line made).2.1 }
  | change {t : LogTask} {storage : Storage} :
      t.writer.Leaves t.storage storage -> Step t (.change storage) { t with storage }

inductive Run (first : LogTask) : List Action -> LogTask -> Prop where
  | start : Run first [] first
  | step {actions : List Action} {action : Action} {t u : LogTask} :
      Run first actions t -> Step t action u -> Run first (actions ++ [action]) u

end LogTask
end HttpEngine
