import ArchSurvey.Digest.Sha256
import ArchSurvey.Text.Split
import ArchSurvey.Text.Utf8

/-!
# Identities

A unit is known by the start of the digest of what names it, so scanners that find the same unit
give it the same identity.
-/

namespace ArchSurvey.Identity

/-- The number of hexadecimal digits of an identity. -/
def length : Nat := 16

/-- Why there is no identity. -/
inductive Refusal where
  | noParts
  | blank
  deriving DecidableEq, Repr

/-- What is said where there is no identity. -/
def Refusal.message : Refusal → String
  | noParts => "at least one component required to generate an id"
  | blank => "input must not be blank"

/-- The whole digest of a text in hexadecimal digits. -/
def digest (text : String) : List Char :=
  Digest.Sha256.hex (Text.Utf8.encode text.toList)

/-- The whole digest of a text that is not blank. -/
def fullDigest (text : String) : Except Refusal String :=
  if Text.isAllBlank text.toList then .error .blank else .ok (String.ofList (digest text))

/-- The identity of a text that is not blank. -/
def ofText (text : String) : Except Refusal String :=
  (fullDigest text).map fun digest => String.ofList (digest.toList.take length)

/-- The identity of some parts in order. -/
def ofParts : List String → Except Refusal String
  | [] => .error .noParts
  | parts => ofText (String.intercalate ":" parts)

/-- The identity of a component of a kind by its name. -/
def ofComponent (kind name : String) : String :=
  String.ofList ((digest (kind ++ ":" ++ name)).take length)

end ArchSurvey.Identity
