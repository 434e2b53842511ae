import RetailPrintGuard.Common.PrintedText

/-! # Printer code pages -/
namespace RetailPrintGuard.Common.CodePages
open RetailPrintGuard.Common.PrintedText

inductive Encoding where
  | cp437 | cp850 | cp858 | cp1252
deriving DecidableEq

def Encoding.name : Encoding → String
  | .cp437 => "cp437"
  | .cp850 => "cp850"
  | .cp858 => "cp858"
  | .cp1252 => "cp1252"

/-- The characters of the bytes from 128 on; the replacement character stands
for a byte that has none. -/
def Encoding.upperHalf : Encoding → String
  | .cp437 =>
    "ÇüéâäàåçêëèïîìÄÅÉæÆôöòûùÿÖÜ¢£¥₧ƒáíóúñÑªº¿⌐¬½¼¡«»░▒▓│┤╡╢╖╕╣║╗╝╜╛┐" ++
    "└┴┬├─┼╞╟╚╔╩╦╠═╬╧╨╤╥╙╘╒╓╫╪┘┌█▄▌▐▀αßΓπΣσµτΦΘΩδ∞φε∩≡±≥≤⌠⌡÷≈°∙·√ⁿ²■\u00a0"
  | .cp850 =>
    "ÇüéâäàåçêëèïîìÄÅÉæÆôöòûùÿÖÜø£Ø×ƒáíóúñÑªº¿®¬½¼¡«»░▒▓│┤ÁÂÀ©╣║╗╝¢¥┐" ++
    "└┴┬├─┼ãÃ╚╔╩╦╠═╬¤ðÐÊËÈıÍÎÏ┘┌█▄¦Ì▀ÓßÔÒõÕµþÞÚÛÙýÝ¯´\u00ad±‗¾¶§÷¸°¨·¹³²■\u00a0"
  | .cp858 =>
    "ÇüéâäàåçêëèïîìÄÅÉæÆôöòûùÿÖÜø£Ø×ƒáíóúñÑªº¿®¬½¼¡«»░▒▓│┤ÁÂÀ©╣║╗╝¢¥┐" ++
    "└┴┬├─┼ãÃ╚╔╩╦╠═╬¤ðÐÊËÈ€ÍÎÏ┘┌█▄¦Ì▀ÓßÔÒõÕµþÞÚÛÙýÝ¯´\u00ad±‗¾¶§÷¸°¨·¹³²■\u00a0"
  | .cp1252 =>
    "€\ufffd‚ƒ„…†‡ˆ‰Š‹Œ\ufffdŽ\ufffd\ufffd‘’“”•–—˜™š›œ\ufffdžŸ\u00a0¡¢£¤¥¦§¨©ª«¬\u00ad®¯°±²³´µ¶·¸¹º»¼½¾¿" ++
    "ÀÁÂÃÄÅÆÇÈÉÊËÌÍÎÏÐÑÒÓÔÕÖ×ØÙÚÛÜÝÞßàáâãäåæçèéêëìíîïðñòóôõö÷øùúûüýþÿ"

/-- One byte in a code page. -/
def decodeByte (encoding : Encoding) (byte : UInt8) : Option Char :=
  if byte < 128 then some (Char.ofNat byte.toNat)
  else
    match encoding.upperHalf.toList[byte.toNat - 128]? with
    | some x => if x == '\ufffd' then none else some x
    | none => none

/-- `bytes.decode(encoding, errors="strict")` -/
def decode (encoding : Encoding) (bytes : List UInt8) : Option Text :=
  bytes.mapM (decodeByte encoding)

end RetailPrintGuard.Common.CodePages
