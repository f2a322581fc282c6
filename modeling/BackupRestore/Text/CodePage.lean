/-
Module: BackupRestore.Text.CodePage
Purpose: Texts in code page 437, the character set of old entry names.
Main exports: decodeCodePage437
-/

namespace BackupRestore.Text

/-- The characters of the upper half, from 0x80 on. -/
def codePage437Upper : Array Char :=
  ("ÇüéâäàåçêëèïîìÄÅÉæÆôöòûùÿÖÜ¢£¥₧ƒ" ++
    "áíóúñÑªº¿⌐¬½¼¡«»░▒▓│┤╡╢╖╕╣║╗╝╜╛┐" ++
    "└┴┬├─┼╞╟╚╔╩╦╠═╬╧╨╤╥╙╘╒╓╫╪┘┌█▄▌▐▀" ++
    "αßΓπΣσµτΦΘΩδ∞φε∩≡±≥≤⌠⌡÷≈°∙·√ⁿ²■\u00a0").toList.toArray

/-- The character of a byte.  The lower half is ASCII. -/
def codePage437Char (b : UInt8) : Char :=
  if b < 0x80 then Char.ofNat b.toNat
  else codePage437Upper.getD (b.toNat - 0x80) ' '

/-- The text that some bytes spell in code page 437. -/
def decodeCodePage437 (bytes : List UInt8) : String :=
  String.ofList (bytes.map codePage437Char)

end BackupRestore.Text
