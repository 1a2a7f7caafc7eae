import XcfFlatten.Text.Shown

/-!
# Quoted text

Text in double quotes on one line: double quotes, backslashes, line breaks and everything that does
not show are escaped.
-/

namespace XcfFlatten.Quoted

/-- A character inside quotes. -/
def escape (c : Char) : String :=
  if c = '"' then "\\\""
  else if c = '\\' then "\\\\"
  else if c = '\x00' then "\\0"
  else if c = '\t' then "\\t"
  else if c = '\n' then "\\n"
  else if c = '\r' then "\\r"
  else if isShown c then String.singleton c
  else "\\u\x7b" ++ String.ofList (Nat.toDigits 16 c.toNat) ++ "\x7d"

/-- The text in quotes. -/
def quote (text : String) : String := "\"" ++ String.join (text.toList.map escape) ++ "\""

end XcfFlatten.Quoted
