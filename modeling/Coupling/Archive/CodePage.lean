/-!
# Code page 437

Archives spell the names of their entries in this code page unless they say otherwise. Its lower
half is ASCII.
-/

namespace Coupling.Archive

/-- The characters of the upper half of the code page, from 128 on. -/
def upperHalf : Array Char :=
  ("ÇüéâäàåçêëèïîìÄÅÉæÆôöòûùÿÖÜ¢£¥₧ƒ" ++
   "áíóúñÑªº¿⌐¬½¼¡«»░▒▓│┤╡╢╖╕╣║╗╝╜╛┐" ++
   "└┴┬├─┼╞╟╚╔╩╦╠═╬╧╨╤╥╙╘╒╓╫╪┘┌█▄▌▐▀" ++
   "αßΓπΣσµτΦΘΩδ∞φε∩≡±≥≤⌠⌡÷≈°∙·√ⁿ²■ ").toList.toArray

/-- The character of a byte. -/
def codePageChar (byte : UInt8) : Char :=
  if byte < 128 then Char.ofNat byte.toNat else (upperHalf[byte.toNat - 128]?).getD '�'

/-- The text that bytes spell in the code page. -/
def codePageText (bytes : List UInt8) : String :=
  String.ofList (bytes.map codePageChar)

end Coupling.Archive
