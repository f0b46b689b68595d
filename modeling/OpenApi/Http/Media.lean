import OpenApi.Text.Words

set_option autoImplicit false

namespace OpenApi

inductive BodyKind where
  | json
  | form
  | multipart
  | binary
  | text
deriving DecidableEq, Repr

namespace Media

def withoutParameters (media : String) : List Char :=
  Text.trim (media.toList.takeWhile (· != ';'))

def essence (media : String) : List Char := Text.asciiLower (withoutParameters media)

def isApplicationJson (essence : List Char) : Bool := essence == "application/json".toList

def isJsonSuffix (essence : List Char) : Bool :=
  "+json".toList.isSuffixOf essence || "/json".toList.isSuffixOf essence

def isForm (essence : List Char) : Bool :=
  essence == "application/x-www-form-urlencoded".toList

def isMultipart (essence : List Char) : Bool := "multipart/".toList.isPrefixOf essence

def isOctetStream (essence : List Char) : Bool := essence == "application/octet-stream".toList

def isText (essence : List Char) : Bool := "text/".toList.isPrefixOf essence

def preferences : List (List Char → Bool) :=
  [isApplicationJson, isJsonSuffix, isForm, isMultipart, isOctetStream, isText]

def select {α : Type} (content : List (String × α)) : Option (String × α) :=
  match preferences.findSome? fun wanted => content.find? fun entry => wanted (essence entry.1) with
  | some entry => some entry
  | none => content.head?

-- The media type denotes content that is not text. Its letters are compared as written.
def isBinary (media : String) : Bool :=
  let plain := withoutParameters media
  plain == "application/octet-stream".toList
    || plain == "application/pdf".toList
    || "image/".toList.isPrefixOf plain
    || "audio/".toList.isPrefixOf plain
    || "video/".toList.isPrefixOf plain

def bodyKind (media : String) : BodyKind :=
  let plain := essence media
  if isApplicationJson plain || isJsonSuffix plain then .json
  else if isForm plain then .form
  else if isMultipart plain then .multipart
  else if isBinary (String.ofList plain) then .binary
  else .text

end Media

end OpenApi
