import Dispatch.Text.Hex
import Dispatch.Text.Visible

/-!
# Quoted text

The form in which text stands in a description of a value: between double
quotes, with the quote, the backslash and what does not show escaped.
-/

namespace Dispatch
namespace Text

def escapeChar (quote c : Char) : String :=
  if c = '\x00' then "\\0"
  else if c = '\t' then "\\t"
  else if c = '\r' then "\\r"
  else if c = '\n' then "\\n"
  else if c = '\\' then "\\\\"
  else if c = quote then "\\" ++ String.singleton c
  else if !shows c then "\\u\x7b" ++ hexOfNat c.toNat ++ "\x7d"
  else String.singleton c

def quoted (text : String) : String :=
  "\"" ++ String.join (text.toList.map (escapeChar '"')) ++ "\""

def quotedChar (c : Char) : String :=
  "'" ++ escapeChar '\'' c ++ "'"

end Text
end Dispatch
