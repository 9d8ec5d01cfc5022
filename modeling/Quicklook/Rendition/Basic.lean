import Quicklook.Coding.Encoder
import Quicklook.Rendition.FileName

/-!
# Renditions

The three files that are made of one picture: a thumbnail of fixed size, an overview of
bounded size, and a recompressed original. Each has a role, and the role decides on its MIME
type and on its name.
-/

namespace Quicklook

/-! ## §1 Roles -/

/-- What a rendition is for. -/
inductive Role where
  | thumbnail
  | overview
  /-- The whole picture, recompressed. -/
  | original
deriving Repr, DecidableEq

namespace Role

/-- All roles, in the order in which renditions are made. -/
def all : List Role :=
  [.thumbnail, .overview, .original]

/-- The place of a role in that order. -/
def rank : Role → Nat
  | .thumbnail => 0
  | .overview => 1
  | .original => 2

/-- The word for the role in file names and resource URIs. -/
def qualifier : Role → String
  | .thumbnail => "thumbnail"
  | .overview => "overview"
  | .original => "original"

/-- Thumbnails and overviews are JPEG files, originals JPEG 2000 files. -/
def mime : Role → String
  | .thumbnail | .overview => "image/jpeg"
  | .original => "image/jp2"

/-- The extension of the file name. -/
def extension : Role → String
  | .thumbnail | .overview => "jpg"
  | .original => "jp2"

end Role

/-! ## §2 Renditions -/

/-- A file made of a picture. -/
structure Rendition where
  role : Role
  content : Bytes
  mime : String
  fileName : String
deriving DecidableEq

namespace Rendition

/-- A file in a role, named after the title of its source. -/
def make (role : Role) (title : String) (content : Bytes) : Rendition :=
  { role, content, mime := role.mime
    fileName := FileName.derive title role.qualifier role.extension }

/-- The number of bytes. -/
def size (r : Rendition) : Nat :=
  r.content.length

/-- Whether the file is empty. -/
def isEmpty (r : Rendition) : Bool :=
  r.content.isEmpty

/-- What an encoder is asked for. -/
inductive Request where
  /-- A file for a box. -/
  | boxed (box : Box)
  /-- A lossy file in full size. -/
  | lossy (profile : Jp2.Profile)

/-- The file that an encoder makes on a request. -/
def Request.run (encoder : Encoder) (raster : Raster) : Request → Except EncodeError Bytes
  | .boxed box => encoder.boxed raster box
  | .lossy profile => encoder.lossy raster profile

/-- What is asked for in a role; `side` bounds the overview. -/
def request (role : Role) (raster : Raster) (side : Float) : Request :=
  match role with
  | .thumbnail => .boxed Box.thumbnail
  | .overview => .boxed (raster.overviewBox side)
  | .original => .lossy Jp2.Profile.lossy

/-- The rendition of a raster in a role. -/
def create (encoder : Encoder) (role : Role) (raster : Raster) (title : String)
    (side : Float) : Except EncodeError Rendition :=
  ((request role raster side).run encoder raster).map (make role title)

end Rendition

/-! ## §3 Outcomes -/

/-- A rendition that could not be made, and why. -/
structure Failure where
  role : Role
  reason : String
deriving Repr, DecidableEq

/-- What came of one source. Each rendition succeeds or fails on its own. -/
structure Outcome where
  renditions : List Rendition
  failures : List Failure
deriving DecidableEq

namespace Outcome

/-- The outcome of a source that no rendition was tried for. -/
def none : Outcome :=
  ⟨[], []⟩

/-- The outcome with one more result. -/
def add (o : Outcome) (role : Role) : Except String Rendition → Outcome
  | .ok r => { o with renditions := o.renditions ++ [r] }
  | .error reason => { o with failures := o.failures ++ [⟨role, reason⟩] }

/-- The rendition in a role. -/
def rendition? (o : Outcome) (role : Role) : Option Rendition :=
  o.renditions.find? (·.role == role)

/-- The failure in a role. -/
def failure? (o : Outcome) (role : Role) : Option Failure :=
  o.failures.find? (·.role == role)

/-- Whether there is neither a rendition nor a failure. -/
def isEmpty (o : Outcome) : Bool :=
  o.renditions.isEmpty && o.failures.isEmpty

end Outcome

end Quicklook
