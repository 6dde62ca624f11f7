import Mathlib.Data.List.Infix
import Text2Image.Models.ImageGeneration

/-! Object keys of stored images. -/

set_option autoImplicit false

namespace Text2Image.ImageStorage

def isKeyChar (c : Char) : Bool := c.isAlphanum ∨ c = '-' ∨ c = '_'

/-- Every byte outside letters, digits, `-` and `_` becomes `_`. -/
def sanitizeKeyPart (value : String) : String :=
  if value.isEmpty then "unknown"
  else String.ofList (value.toList.flatMap fun c =>
    if isKeyChar c then [c] else List.replicate c.utf8Size '_')

def extension (contentType : String) : String :=
  if "jpeg".toList <:+: contentType.toList ∨ "jpg".toList <:+: contentType.toList then "jpg"
  else if "webp".toList <:+: contentType.toList then "webp"
  else "png"

/-- The key under which `store` uploads an image of this user and request. -/
def objectKey (userId : Int) (requestId contentType : String) : String :=
  s!"images/{userId}/{sanitizeKeyPart requestId}.{extension contentType}"

def contentTypeForKey (storageKey : String) : String :=
  if ".jpg".toList <:+ storageKey.toList ∨ ".jpeg".toList <:+ storageKey.toList then "image/jpeg"
  else if ".webp".toList <:+ storageKey.toList then "image/webp"
  else "image/png"

end Text2Image.ImageStorage
