/-
Corpus/Text/CodePage437.lean

Code page 437, in which archives name their entries unless they say otherwise.  Its lower
half is ASCII.
-/
import Corpus.Text.Utf8

namespace Corpus.Text

/-- The characters of the bytes from 128 on. -/
def upperHalf437 : String :=
  "ÇüéâäàåçêëèïîìÄÅÉæÆôöòûùÿÖÜ¢£¥₧ƒáíóúñÑªº¿⌐¬½¼¡«»░▒▓│┤╡╢╖╕╣║╗╝╜╛┐" ++
    "└┴┬├─┼╞╟╚╔╩╦╠═╬╧╨╤╥╙╘╒╓╫╪┘┌█▄▌▐▀αßΓπΣσµτΦΘΩδ∞φε∩≡±≥≤⌠⌡÷≈°∙·√ⁿ²■\u00a0"

/-- The character of a byte. -/
def char437 (b : UInt8) : Char :=
  if b < 128 then Char.ofNat b.toNat else (upperHalf437.toList[b.toNat - 128]?).getD ' '

/-- The text of some bytes. -/
def decode437 (s : Bytes) : String := String.ofList (s.map char437)

end Corpus.Text
