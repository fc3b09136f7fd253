import HttpEngine.Text.Cut

/-!
# Media types

The media types of responses, the file extension for an upload of a given type, and the type of a
file by its name.
-/

namespace HttpEngine
namespace MediaType

def json : String := "application/json"

def text : String := "text/plain"

def html : String := "text/html"

def multipart : String := "multipart/form-data"

def octetStream : String := "application/octet-stream"

/-! # Extensions of uploads -/

/-- Types and their extensions; an earlier entry wins over a later one. -/
def extensions : List (String × String) :=
  [("text/html", ".html"),
   ("text/plain", ".txt"),
   ("application/xml", ".xml"),
   ("text/css", ".css"),
   ("text/csv", ".csv"),
   ("application/json", ".json"),
   ("application/x-www-form-urlencoded", ".txt"),
   ("multipart/form-data", ".bin"),
   ("application/octet-stream", ".bin"),
   ("application/javascript", ".js"),
   ("image/png", ".png"),
   ("image/jpeg", ".jpg"),
   ("image/gif", ".gif"),
   ("image/webp", ".webp"),
   ("image/svg+xml", ".svg"),
   ("image/bmp", ".bmp"),
   ("audio/mpeg", ".mp3"),
   ("audio/wav", ".wav"),
   ("audio/ogg", ".ogg"),
   ("video/mp4", ".mp4"),
   ("video/webm", ".webm"),
   ("video/x-msvideo", ".avi"),
   ("application/zip", ".zip"),
   ("application/vnd.rar", ".rar"),
   ("application/x-7z-compressed", ".7z"),
   ("application/pdf", ".pdf"),
   ("application/msword", ".doc"),
   ("application/vnd.openxmlformats-officedocument.wordprocessingml.document", ".docx"),
   ("application/vnd.ms-excel", ".xls"),
   ("application/vnd.openxmlformats-officedocument.spreadsheetml.sheet", ".xlsx"),
   ("font/woff", ".woff"),
   ("font/woff2", ".woff2"),
   ("font/ttf", ".ttf"),
   ("font/otf", ".otf")]

def contains (text part : String) : Bool :=
  holds part.toList text.toList

/-- The extension of the first type that stands anywhere in a content type. -/
def extensionFor (contentType : String) : String :=
  match extensions.find? fun (type, _) => contains contentType type with
  | some (_, extension) => extension
  | none => ".tmp"

/-! # Types of files -/

def byExtension : List (String × String) :=
  [("html", "text/html"), ("htm", "text/html"), ("txt", "text/plain"), ("css", "text/css"),
   ("csv", "text/csv"), ("xml", "application/xml"), ("js", "application/javascript"),
   ("mjs", "application/javascript"), ("json", "application/json"), ("png", "image/png"),
   ("jpg", "image/jpeg"), ("jpeg", "image/jpeg"), ("gif", "image/gif"), ("webp", "image/webp"),
   ("svg", "image/svg+xml"), ("bmp", "image/bmp"), ("ico", "image/x-icon"),
   ("mp3", "audio/mpeg"), ("wav", "audio/wav"), ("ogg", "audio/ogg"), ("mp4", "video/mp4"),
   ("webm", "video/webm"), ("pdf", "application/pdf"), ("zip", "application/zip"),
   ("wasm", "application/wasm"), ("woff", "font/woff"), ("woff2", "font/woff2"),
   ("ttf", "font/ttf"), ("otf", "font/otf")]

/-- The last name in a path, passing over empty ones and single dots; two dots are no name. -/
def fileName? (path : List Char) : Option (List Char) :=
  match (path.splitOn '/').reverse.find? fun part => !part.isEmpty && part != ['.'] with
  | some part => if part = ['.', '.'] then none else some part
  | none => none

/-- The stem and the extension of a file name: cut at the last dot, unless that is in front. -/
def splitExtension {α : Type} [BEq α] (dot : α) (name : List α) :
    List α × Option (List α) :=
  let reversed := name.reverse
  let extension := (reversed.takeWhile (· != dot)).reverse
  match reversed.dropWhile (· != dot) with
  | [] => (name, none)
  | [_] => (name, none)
  | _ :: stem => (stem.reverse, some extension)

def ofPath (path : String) : String :=
  let extension := (fileName? path.toList).bind fun name => (splitExtension '.' name).2
  let key := String.ofList ((extension.getD []).map Char.toLower)
  (byExtension.lookup key).getD octetStream

end MediaType
end HttpEngine
