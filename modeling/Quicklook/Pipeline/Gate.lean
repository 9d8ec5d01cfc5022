import Quicklook.Event
import Quicklook.Source.Resource
import Quicklook.Text.Blank
import Quicklook.Text.Pieces

/-!
# The gate

Which sources are rendered: those that are there, that declare the image type, and that
declare a size within the limit. Nothing is read of a source to decide this, and to be
turned away is no error.
-/

namespace Quicklook

/-! ## §1 Rejections -/

/-- Why a source is not rendered. -/
inductive Rejection where
  | missing
  | notNitf (mime : String)
  | tooLarge (megabytes limit : UInt64)
deriving Repr, DecidableEq

/-- A rejection in words. -/
def Rejection.reason : Rejection → String
  | .missing => "no resource"
  | .notNitf mime => "mime type " ++ Text.quoted mime ++ " is not image/nitf"
  | .tooLarge megabytes limit => s!"{megabytes} MB exceeds the {limit} MB limit"

/-! ## §2 Types and sizes -/

/-- The parts of a MIME type before and after its slash, without its parameters and without
    the blanks around each; nothing without a slash. -/
def mimeParts (mime : List Char) : Option (List Char × List Char) :=
  (Text.cutAt (· == '/') (Text.trim (Text.before (· == ';') mime))).map fun (kind, subtype) =>
    (Text.trim kind, Text.trim subtype)

/-- Whether a text is the given word, ASCII letters in either case. -/
def isWord (word : String) (s : List Char) : Bool :=
  s.map Char.toLower == word.toList

/-- Whether a MIME type is the one of the images. -/
def isNitf (mime : String) : Logged Bool :=
  match mimeParts mime.toList with
  | none => do
    Logged.report (.mimeUnparsable mime)
    pure false
  | some (kind, subtype) => pure (isWord "image" kind && isWord "nitf" subtype)

/-- The bytes of a megabyte. -/
def megabyte : UInt64 :=
  1048576

/-- A size in whole megabytes. -/
def wholeMegabytes (bytes : UInt64) : UInt64 :=
  bytes / megabyte

/-! ## §3 The gate -/

/-- Lets a source pass or turns it away. The type is looked at before the size. -/
def gate (limit : UInt64) : Option Resource → Logged (Except Rejection Unit)
  | none => pure (.error .missing)
  | some resource => do
    if ← isNitf resource.mime then
      let size := wholeMegabytes resource.size
      pure (if limit < size then .error (.tooLarge size limit) else .ok ())
    else pure (.error (.notNitf resource.mime))

end Quicklook
