import HttpEngine.Event
import HttpEngine.Http.MediaType
import HttpEngine.Json.Parser
import HttpEngine.Storage

/-!
# Translations

Texts by key for several locales, in the order in which the locales came.  The first locale is the
default: a key that a locale lacks is looked up there.  A table is read from a directory with one
file for each locale, a JSON object whose strings are the texts.
-/

namespace HttpEngine

structure Locale where
  code : String
  texts : List (String × String)
  deriving DecidableEq, Repr

structure Translations where
  locales : List Locale
  deriving DecidableEq, Repr

inductive LoadProblem where
  | storage (error : StorageError)
  | notText
  | notJson
  | notAnObject
  deriving DecidableEq, Repr

def LoadProblem.reason : LoadProblem -> String
  | .storage error => error.message
  | .notText => "stream did not contain valid UTF-8"
  | .notJson => "json"
  | .notAnObject => "expected a JSON object"

structure LoadError where
  reference : Bytes
  problem : LoadProblem
  deriving DecidableEq, Repr

namespace Locale

def text? (l : Locale) (key : String) : Option String :=
  l.texts.lookup key

/-- Sets the text of a key; the one set last stands first. -/
def insert (l : Locale) (key text : String) : Locale :=
  { l with texts := (key, text) :: l.texts.filter fun e => !(e.1 == key) }

def ofMembers (code : String) (members : List (String × Json)) : Locale :=
  ⟨code, members.filterMap fun (key, value) => value.text?.map (key, ·)⟩

end Locale

namespace Translations

def empty : Translations := ⟨[]⟩

def codes (t : Translations) : List String :=
  t.locales.map Locale.code

def defaultCode? (t : Translations) : Option String :=
  t.codes.head?

def locale? (t : Translations) (code : String) : Option Locale :=
  t.locales.find? fun l => l.code == code

/-- Sets a text in the first of some locales that has the code, or in a new one after them. -/
def insertInto (code key text : String) : List Locale -> List Locale
  | [] => [(Locale.mk code []).insert key text]
  | l :: rest =>
      if l.code = code then l.insert key text :: rest
      else l :: insertInto code key text rest

def insert (t : Translations) (code key text : String) : Translations :=
  ⟨insertInto code key text t.locales⟩

def lookup? (t : Translations) (key : String) (code : Option String) : Option String :=
  ((code.bind t.locale?).bind (·.text? key)).or
    (t.locales.head?.bind (·.text? key))

def get (t : Translations) (key : String) (code : Option String) : String :=
  (t.lookup? key code).getD key

/-! # Reading a directory -/

def nameLe (a b : FileName) : Bool :=
  !(b < a)

def fileExtension : Bytes := Utf8.encode "json"

/-- The files to read, by name; each with its stem.  What cannot be reached is no file. -/
def sources (storage : Storage) (directory : Path) (reference : Bytes) (names : List FileName) :
    List (FileName × Bytes × Bytes) :=
  let files := names.filterMap fun name =>
    match MediaType.splitExtension 46 name with
    | (stem, some extension) =>
        if extension = fileExtension then
          match storage.readReference directory (Storage.join reference name) with
          | .ok (_, content) => some (name, stem, content)
          | .error _ => none
        else none
    | _ => none
  files.mergeSort fun a b => nameLe a.1 b.1

def readLocale (code : String) (content : Bytes) : Except LoadProblem Locale :=
  match Utf8.decodeChars? content with
  | none => .error .notText
  | some text =>
      match JsonText.ofChars? text with
      | none => .error .notJson
      | some (.object members) => .ok (.ofMembers code members)
      | some _ => .error .notAnObject

def readAll (reference : Bytes) (read : List Locale) :
    List (FileName × Bytes × Bytes) -> Except LoadError Translations × List Event
  | [] => (.ok ⟨read⟩, [])
  | (name, stem, content) :: rest =>
      match Utf8.decode? stem with
      | none => readAll reference read rest
      | some code =>
          match readLocale code content with
          | .error problem => (.error ⟨Storage.join reference name, problem⟩, [])
          | .ok locale =>
              let (result, events) := readAll reference (read ++ [locale]) rest
              (result, .translationsLoaded code :: events)

def load (storage : Storage) (directory : Path) (reference : Bytes) :
    Except LoadError Translations × List Event :=
  match storage.resolve directory reference >>= storage.list with
  | .error error => (.error ⟨reference, .storage error⟩, [])
  | .ok names => readAll reference [] (sources storage directory reference names)

end Translations
end HttpEngine
