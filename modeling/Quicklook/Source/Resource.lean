import Quicklook.Source.Stream
import Quicklook.Rendition.Basic
import Quicklook.Text.Quoted

/-!
# Resources

What is stored for a record: declared facts and a stream of bytes. The declared size and
MIME type need not be true; the stream can be read once.
-/

namespace Quicklook

/-- A stored file and what is declared about it. -/
structure Resource where
  recordId : String
  /-- The title; renditions are named after it. -/
  title : String
  /-- The name, usually that of a file. -/
  name : String
  mime : String
  size : UInt64
  /-- What the resource is for, if it was derived. -/
  qualifier : Option String
  /-- The bytes that have not been read yet. -/
  stream : Stream
deriving Repr, DecidableEq

namespace Resource

/-- A source of a declared size over a stream. Its name is its title. -/
def ofStream (recordId title mime : String) (size : UInt64) (stream : Stream) : Resource :=
  { recordId, title, name := title, mime, size, qualifier := none, stream }

/-- A source over bytes; its declared size is their number. -/
def ofBytes (recordId title mime : String) (content : Bytes) : Resource :=
  ofStream recordId title mime (UInt64.ofNat content.length) (.ofBytes content)

/-- The resource of a rendition, with its file name for title and name. -/
def ofRendition (recordId : String) (r : Rendition) : Resource :=
  { ofBytes recordId r.fileName r.mime r.content with
    name := r.fileName
    qualifier := some r.role.qualifier }

/-- The resource after its stream has been read. -/
def drained (r : Resource) : Resource :=
  { r with stream := r.stream.drained }

/-- A one-line description of what is declared. -/
def summary (r : Resource) : String :=
  let qualifier := match r.qualifier with
    | none => "None"
    | some q => "Some(" ++ Text.quoted q ++ ")"
  "SourceResource \x7b record_id: " ++ Text.quoted r.recordId ++ ", title: " ++
    Text.quoted r.title ++ ", name: " ++ Text.quoted r.name ++ ", mime_type: " ++
    Text.quoted r.mime ++ ", size_bytes: " ++ toString r.size ++ ", qualifier: " ++
    qualifier ++ ", .. \x7d"

end Resource

end Quicklook
