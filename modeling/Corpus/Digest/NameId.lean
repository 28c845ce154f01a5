/-
Corpus/Digest/NameId.lean

Identifiers made from names: UUIDs of version 5.  The digest of a namespace and a name is
cut to sixteen bytes and stamped with the version and the variant, so the same name
always has the same identifier.
-/
import Corpus.Digest.Sha1

namespace Corpus.NameId

/-- The namespace of names that are locations. -/
def locations : Bytes :=
  [0x6B, 0xA7, 0xB8, 0x11, 0x9D, 0xAD, 0x11, 0xD1, 0x80, 0xB4, 0x00, 0xC0, 0x4F, 0xD4, 0x30, 0xC8]

/-- Sets the version in byte 6 and the variant in byte 8. -/
def stamp (digest : Bytes) : Bytes :=
  (digest.take 16).zipIdx.map fun (b, i) =>
    if i = 6 then (b &&& 0x0F) ||| 0x50
    else if i = 8 then (b &&& 0x3F) ||| 0x80
    else b

/-- A byte as two small hexadecimal digits. -/
def hexByte (b : UInt8) : List Char :=
  [Nat.digitChar (b.toNat / 16), Nat.digitChar (b.toNat % 16)]

/-- The sixteen bytes in groups of 4, 2, 2, 2 and 6, separated by hyphens. -/
def hyphenated (id : Bytes) : String :=
  String.ofList <| id.zipIdx.flatMap fun (b, i) =>
    if i = 4 || i = 6 || i = 8 || i = 10 then '-' :: hexByte b else hexByte b

/-- The identifier of a name in a namespace. -/
def ofName (space : Bytes) (name : String) : String :=
  hyphenated (stamp (Sha1.digest (space ++ Text.encode name)))

/-- The characters are a written identifier: small hexadecimal digits with hyphens between the
groups. -/
def isForm (cs : List Char) : Bool :=
  cs.length = 36 && cs.zipIdx.all fun (c, i) =>
    if i = 8 || i = 13 || i = 18 || i = 23 then c = '-'
    else c.isDigit || ('a' ≤ c && c ≤ 'f')

end Corpus.NameId
