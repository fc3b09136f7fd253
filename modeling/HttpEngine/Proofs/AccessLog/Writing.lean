import HttpEngine.AccessLog.Task
import HttpEngine.Proofs.Storage.Appending
import HttpEngine.Proofs.Text.Encoding

/-!
# What is written of the lines

Every line that the queue had room for is attempted once and in its turn, or waits for it.  The file
of a day grows by the lines of the day whose file could be made ready, and no other file changes.
The open file is always the one of its day, however the days come and whatever has failed.
-/

namespace HttpEngine
namespace LogWriter

theorem file_inj {w : LogWriter} {day other : String} (h : w.file day = w.file other) :
    day = other := by
  have hdirectory := List.append_cancel_right h
  have hname := List.append_cancel_left hdirectory
  exact Utf8.encode_inj (List.singleton_inj.mp hname)

theorem dropLast_file (w : LogWriter) (day : String) : (w.file day).dropLast = w.directory day :=
  List.dropLast_concat

def Opened (w : LogWriter) (storage : Storage) : Prop :=
  forall day, w.openDay = some day ->
    storage.file? (w.file day) ≠ none ∧ storage.get? (w.directory day) = some .directory

section

variable {w made : LogWriter} {storage opened : Storage} {day : String} {line : LogLine}

theorem openFor_eq_ok (h : w.Opened storage) (hmade : w.openFor storage day = .ok (made, opened)) :
    made = { w with openDay := some day } ∧
      opened.file? (w.file day) = some ((storage.file? (w.file day)).getD []) ∧
      opened.get? (w.directory day) = some .directory ∧
      forall other, other ≠ w.file day -> opened.file? other = storage.file? other := by
  unfold openFor at hmade
  by_cases hday : w.openDay = some day
  · rw [if_pos hday] at hmade
    cases hmade
    rcases h day hday with ⟨hfile, hdirectory⟩
    rcases Option.ne_none_iff_exists'.mp hfile with ⟨content, hcontent⟩
    refine ⟨?_, ?_, hdirectory, fun other _ => rfl⟩
    · rw [← hday]
    · rw [hcontent]
      rfl
  · rw [if_neg hday] at hmade
    rcases Storage.bind_eq_ok hmade with ⟨ready, hready, hrest⟩
    rcases Storage.bind_eq_ok hrest with ⟨later, hlater, heq⟩
    cases heq
    have habove := (Storage.append_eq_ok_iff.mp hlater).left
    rw [dropLast_file] at habove
    refine ⟨rfl, ?_, Storage.directory_append hlater habove, ?_⟩
    · rw [Storage.file?_append_self hlater, Storage.file?_makeDirectories hready, List.append_nil]
    · intro other hother
      rw [Storage.file?_append_of_ne hlater hother, Storage.file?_makeDirectories hready]

theorem writeTo_ok (h : w.Opened storage)
    (hmade : w.openFor storage line.day = .ok (made, opened)) :
    exists later, w.writeTo storage line (.ok (made, opened)) =
        ({ w with openDay := some line.day }, later, []) ∧
      later.file? (w.file line.day) =
        some ((storage.file? (w.file line.day)).getD [] ++ Utf8.encode line.text) ∧
      later.get? (w.directory line.day) = some .directory ∧
      forall other, other ≠ w.file line.day -> later.file? other = storage.file? other := by
  rcases openFor_eq_ok h hmade with ⟨heq, hfile, hdirectory, hothers⟩
  cases heq
  have hready : opened.get? (w.file line.day).dropLast = some .directory := by
    rw [dropLast_file, hdirectory]
  have hheld : opened.file? (w.file line.day) ≠ none := by
    rw [hfile]
    exact Option.some_ne_none _
  rcases Storage.exists_append hready hheld (Utf8.encode line.text) with ⟨later, hlater⟩
  refine ⟨later, ?_, ?_, Storage.directory_append hlater hdirectory, ?_⟩
  · have hput : opened.append (({ w with openDay := some line.day } : LogWriter).file line.day)
        (Utf8.encode line.text) = .ok later := hlater
    simp only [writeTo, hput]
  · rw [Storage.file?_append_self hlater, hfile]
    rfl
  · intro other hother
    rw [Storage.file?_append_of_ne hlater hother, hothers other hother]

end

end LogWriter

/-! # What the steps say -/

def extended (held : Option Bytes) (lines : List LogLine) : Option Bytes :=
  if lines = [] then held
  else some (held.getD [] ++ lines.flatMap fun line => Utf8.encode line.text)

theorem extended_concat (held : Option Bytes) (lines : List LogLine) (line : LogLine) :
    extended held (lines ++ [line]) =
      some ((extended held lines).getD [] ++ Utf8.encode line.text) := by
  have hne : lines ++ [line] ≠ [] := by simp
  unfold extended
  rw [if_neg hne, List.flatMap_append, List.flatMap_singleton]
  by_cases h : lines = []
  · rw [if_pos h, h]
    rfl
  · rw [if_neg h, Option.getD_some, List.append_assoc]

namespace LogTask

/-- The lines that were recorded while the queue had room. -/
def queued (actions : List Action) : List LogLine :=
  actions.filterMap fun
    | .record line true => some line
    | _ => none

/-- The lines that were to be written, and whether their files could be made ready. -/
def attempts (actions : List Action) : List (LogLine × Bool) :=
  actions.filterMap fun
    | .write line isReady => some (line, isReady)
    | _ => none

def written (actions : List Action) : List LogLine :=
  ((attempts actions).filter Prod.snd).map Prod.fst

def writtenOn (actions : List Action) (day : String) : List LogLine :=
  (written actions).filter fun line => line.day == day

/-- What others left in the store last. -/
def leftBy (storage : Storage) (actions : List Action) : Storage :=
  actions.foldl (fun held action => match action with
    | .change storage => storage
    | _ => held) storage

section

variable (actions : List Action) (line : LogLine) (hasRoom isReady : Bool) (day : String)

@[simp] theorem queued_record :
    queued (actions ++ [.record line hasRoom]) =
      queued actions ++ if hasRoom then [line] else [] := by
  cases hasRoom <;> simp [queued]

@[simp] theorem queued_take : queued (actions ++ [.take]) = queued actions := by
  simp [queued]

@[simp] theorem queued_write : queued (actions ++ [.write line isReady]) = queued actions := by
  simp [queued]

@[simp] theorem queued_change (storage : Storage) :
    queued (actions ++ [.change storage]) = queued actions := by
  simp [queued]

@[simp] theorem attempts_record :
    attempts (actions ++ [.record line hasRoom]) = attempts actions := by
  simp [attempts]

@[simp] theorem attempts_take : attempts (actions ++ [.take]) = attempts actions := by
  simp [attempts]

@[simp] theorem attempts_write :
    attempts (actions ++ [.write line isReady]) = attempts actions ++ [(line, isReady)] := by
  simp [attempts]

@[simp] theorem attempts_change (storage : Storage) :
    attempts (actions ++ [.change storage]) = attempts actions := by
  simp [attempts]

theorem writtenOn_write :
    writtenOn (actions ++ [.write line isReady]) day =
      writtenOn actions day ++ if isReady ∧ line.day = day then [line] else [] := by
  cases isReady with
  | false => simp [writtenOn, written]
  | true =>
      by_cases hday : line.day = day
      · simp [writtenOn, written, hday]
      · simp [writtenOn, written, hday]

theorem leftBy_concat (storage : Storage) (action : Action) :
    leftBy storage (actions ++ [action]) =
      match action with
      | .change later => later
      | _ => leftBy storage actions := by
  unfold leftBy
  rw [List.foldl_append]
  rfl

end

variable {root : Path} {capacity : Nat} {storage : Storage} {actions : List Action}
  {action : Action} {t u : LogTask}

structure Kept (root : Path) (storage : Storage) (actions : List Action) (t : LogTask) : Prop where
  sameRoot : t.writer.root = root
  isOpen : t.queue.isOpen = true
  opened : t.writer.Opened t.storage
  lines : queued actions = (attempts actions).map Prod.fst ++ t.inHand.toList ++ t.queue.lines
  files : forall day, t.storage.file? ((LogWriter.new root).file day) =
    extended (storage.file? ((LogWriter.new root).file day)) (writtenOn actions day)
  others : forall path, (forall day, path ≠ (LogWriter.new root).file day) ->
    t.storage.file? path = (leftBy storage actions).file? path

theorem kept_start (root : Path) (capacity : Nat) (storage : Storage) :
    Kept root storage [] (start root capacity storage) where
  sameRoot := rfl
  isOpen := rfl
  opened := by
    intro day hday
    cases hday
  lines := rfl
  files := by
    intro day
    rfl
  others := by
    intro path _
    rfl

theorem writtenOn_of_attempts (h : attempts (actions ++ [action]) = attempts actions)
    (day : String) : writtenOn (actions ++ [action]) day = writtenOn actions day := by
  rw [writtenOn, written, h]
  rfl

/-! # One step -/

theorem Kept.record (h : Kept root storage actions t) (entry : LogEntry) (time : Nat) :
    Kept root storage (actions ++ [.record (entry.line (.ofUnix time))
        (t.queue.lines.length < t.queue.capacity)])
      { t with queue := (t.queue.record entry time).1 } := by
  have hqueue : (t.queue.record entry time).1.isOpen = true ∧
      (t.queue.record entry time).1.lines =
        t.queue.lines ++ if t.queue.lines.length < t.queue.capacity
          then [entry.line (.ofUnix time)] else [] := by
    unfold LogQueue.record
    by_cases hroom : t.queue.lines.length < t.queue.capacity
    · simp [h.isOpen, hroom, Nat.not_le.mpr hroom]
    · simp [h.isOpen, hroom, Nat.not_lt.mp hroom]
  constructor
  case sameRoot => exact h.sameRoot
  case isOpen => exact hqueue.left
  case opened => exact h.opened
  case lines =>
    rw [queued_record, attempts_record, h.lines, hqueue.right, ← List.append_assoc]
    simp
  case files =>
    intro day
    rw [writtenOn_of_attempts (attempts_record _ _ _), h.files]
  case others =>
    intro path hpath
    rw [leftBy_concat]
    exact h.others path hpath

theorem Kept.take (h : Kept root storage actions t) {line : LogLine} {queue : LogQueue}
    (hidle : t.inHand = none) (htake : t.queue.take? = some (line, queue)) :
    Kept root storage (actions ++ [.take]) { t with queue, inHand := some line } := by
  have hqueue : queue.isOpen = true ∧ t.queue.lines = line :: queue.lines := by
    unfold LogQueue.take? at htake
    cases hheld : t.queue.lines with
    | nil =>
        rw [hheld] at htake
        cases htake
    | cons first rest =>
        rw [hheld] at htake
        cases htake
        exact ⟨h.isOpen, rfl⟩
  constructor
  case sameRoot => exact h.sameRoot
  case isOpen => exact hqueue.left
  case opened => exact h.opened
  case lines =>
    rw [queued_take, attempts_take, h.lines, hidle, hqueue.right]
    simp
  case files =>
    intro day
    rw [writtenOn_of_attempts (attempts_take _), h.files]
  case others =>
    intro path hpath
    rw [leftBy_concat]
    exact h.others path hpath

theorem Kept.change (h : Kept root storage actions t) {later : Storage}
    (hleaves : t.writer.Leaves t.storage later) :
    Kept root storage (actions ++ [.change later]) { t with storage := later } := by
  constructor
  case sameRoot => exact h.sameRoot
  case isOpen => exact h.isOpen
  case opened =>
    intro day hday
    have hfile : later.file? (t.writer.file day) ≠ none := by
      rw [(hleaves day).left]
      exact (h.opened day hday).left
    exact ⟨hfile, (hleaves day).right hfile⟩
  case lines =>
    rw [queued_change, attempts_change]
    exact h.lines
  case files =>
    intro day
    have hsame := (hleaves day).left
    have hfile : t.writer.file day = (LogWriter.new root).file day := by
      rw [← h.sameRoot]
      rfl
    rw [hfile] at hsame
    rw [writtenOn_of_attempts (attempts_change _ _), ← h.files, ← hsame]
  case others =>
    intro path _
    rw [leftBy_concat]

theorem Kept.fail (h : Kept root storage actions t) {line : LogLine}
    (hhand : t.inHand = some line) :
    Kept root storage (actions ++ [.write line false])
      { t with inHand := none, writer := { t.writer with openDay := none } } := by
  constructor
  case sameRoot => exact h.sameRoot
  case isOpen => exact h.isOpen
  case opened =>
    intro day hday
    cases hday
  case lines =>
    rw [queued_write, attempts_write, h.lines, hhand]
    simp
  case files =>
    intro day
    rw [writtenOn_write, h.files]
    simp
  case others =>
    intro path hpath
    rw [leftBy_concat]
    exact h.others path hpath

theorem Kept.write (h : Kept root storage actions t) {line : LogLine} {later : Storage}
    (hhand : t.inHand = some line)
    (hfile : later.file? (t.writer.file line.day) =
      some ((t.storage.file? (t.writer.file line.day)).getD [] ++ Utf8.encode line.text))
    (hdirectory : later.get? (t.writer.directory line.day) = some .directory)
    (hothers : forall other, other ≠ t.writer.file line.day ->
      later.file? other = t.storage.file? other) :
    Kept root storage (actions ++ [.write line true])
      { t with
        inHand := none
        writer := { t.writer with openDay := some line.day }
        storage := later } := by
  have hsame : forall day, t.writer.file day = (LogWriter.new root).file day := by
    intro day
    rw [← h.sameRoot]
    rfl
  constructor
  case sameRoot => exact h.sameRoot
  case isOpen => exact h.isOpen
  case opened =>
    intro day hday
    cases hday
    have hne : later.file? (t.writer.file line.day) ≠ none := by
      rw [hfile]
      exact Option.some_ne_none _
    exact ⟨hne, hdirectory⟩
  case lines =>
    rw [queued_write, attempts_write, h.lines, hhand]
    simp
  case files =>
    intro day
    rw [writtenOn_write]
    by_cases hday : line.day = day
    · cases hday
      rw [if_pos ⟨rfl, rfl⟩, extended_concat, ← h.files, ← hsame]
      exact hfile
    · have hne : (LogWriter.new root).file day ≠ t.writer.file line.day := by
        rw [← hsame]
        intro heq
        exact hday (LogWriter.file_inj heq).symm
      rw [if_neg (fun hboth => hday hboth.right), List.append_nil, ← h.files]
      exact hothers _ hne
  case others =>
    intro path hpath
    rw [leftBy_concat, ← h.others path hpath]
    apply hothers
    rw [hsame]
    exact hpath line.day

theorem Kept.step (h : Kept root storage actions t) (hstep : Step t action u) :
    Kept root storage (actions ++ [action]) u := by
  cases hstep with
  | record entry time => exact h.record entry time
  | take hidle htake => exact h.take hidle htake
  | change hleaves => exact h.change hleaves
  | @write line made hhand hmade =>
      cases made with
      | error e => exact h.fail hhand
      | ok ready =>
          rcases ready with ⟨w, opened⟩
          rcases hmade with hmade | ⟨_, e, he⟩
          · rcases LogWriter.writeTo_ok h.opened hmade.symm with
              ⟨later, hwrite, hfile, hdirectory, hothers⟩
            rw [hwrite]
            exact h.write hhand hfile hdirectory hothers
          · cases he

/-! # Runs -/

theorem Run.kept (h : Run (LogTask.start root capacity storage) actions t) :
    Kept root storage actions t := by
  induction h with
  | start => exact kept_start root capacity storage
  | step _ hstep ih => exact ih.step hstep

/--
Of the lines that were recorded while the queue had room, each is attempted once and in its turn, or
waits for it.  The file of each day holds what it held at first and behind it the lines of the day
whose file could be made ready; any other file is as others have left it.  So when all lines have
been taken and nothing has failed, the file of each day has grown by all its lines.
-/
theorem Run.writes_all (h : Run (LogTask.start root capacity storage) actions t) :
    queued actions = (attempts actions).map Prod.fst ++ t.inHand.toList ++ t.queue.lines ∧
    (forall day, t.storage.file? ((LogWriter.new root).file day) =
      extended (storage.file? ((LogWriter.new root).file day)) (writtenOn actions day)) ∧
    (forall path, (forall day, path ≠ (LogWriter.new root).file day) ->
      t.storage.file? path = (leftBy storage actions).file? path) ∧
    (t.inHand = none -> t.queue.lines = [] -> (forall a, a ∈ attempts actions -> a.2 = true) ->
      written actions = queued actions ∧
      forall day, t.storage.file? ((LogWriter.new root).file day) =
        extended (storage.file? ((LogWriter.new root).file day))
          ((queued actions).filter fun line => line.day == day)) := by
  have hkept := h.kept
  refine ⟨hkept.lines, hkept.files, hkept.others, ?_⟩
  intro hhand hqueue hready
  have hwritten : written actions = queued actions := by
    rw [hkept.lines, hhand, hqueue, written, List.filter_eq_self.mpr hready]
    simp
  refine ⟨hwritten, ?_⟩
  intro day
  rw [hkept.files, writtenOn, hwritten]

/-- A file stands in the way of the second day's directory, and the first day comes afterwards. -/
theorem Run.writes_all_blocked :
    exists (storage : Storage) (actions : List Action) (t : LogTask) (first second : LogLine),
      Run (LogTask.start [[116]] 1 storage) actions t ∧
        attempts actions = [(second, false), (first, true)] ∧ queued actions = [second, first] ∧
        t.storage.file? ((LogWriter.new [[116]]).file first.day) = extended none [first] ∧
        t.storage.file? ((LogWriter.new [[116]]).file second.day) = none ∧
        t.storage.file? ((LogWriter.new [[116]]).directory second.day) = some [120] := by
  let entry : LogEntry := ⟨"a", "GET", "/", "HTTP/1.1", 200, 0, "-", 0⟩
  let first := entry.line (.ofUnix 0)
  let second := entry.line (.ofUnix 86400)
  let blocked := (LogWriter.new [[116]]).directory second.day
  let storage : Storage := ⟨[([[116]], .directory), (blocked, .ofContent [120])], by decide +kernel⟩
  have hrun := @Run.start (LogTask.start [[116]] 1 storage)
    |>.step (.record entry 86400) |>.step (.take rfl rfl)
    |>.step (.record entry 0) |>.step (.write rfl (Or.inl rfl))
    |>.step (.take rfl rfl) |>.step (.write rfl (Or.inl rfl))
  have hall := hrun.writes_all
  refine ⟨storage, _, _, first, second, hrun, ?_, ?_, ?_, ?_, ?_⟩
  · decide +kernel
  · decide +kernel
  · rw [hall.right.left]
    decide +kernel
  · rw [hall.right.left]
    decide +kernel
  · rw [hall.right.right.left]
    · decide +kernel
    · intro day heq
      exact absurd (congrArg List.length heq) (by simp [LogWriter.file, LogWriter.directory])

end LogTask
end HttpEngine
