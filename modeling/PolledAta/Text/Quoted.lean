import PolledAta.Text.Hex

/-!
Text between double quotes with its control characters spelled out.
-/

namespace PolledAta.Text

/-- Covers ASCII: every other character stands for itself. -/
def escapeChar (c : Char) : String :=
  if c = '"' then "\\\""
  else if c = '\\' then "\\\\"
  else if c = '\n' then "\\n"
  else if c = '\r' then "\\r"
  else if c = '\t' then "\\t"
  else if c.toNat = 0 then "\\0"
  else if c.toNat < 0x20 ∨ c.toNat = 0x7f then "\\u\x7b" ++ hexNat c.toNat ++ "\x7d"
  else c.toString

def quoted (text : String) : String :=
  "\"" ++ text.toList.foldl (fun acc c => acc ++ escapeChar c) "" ++ "\""

end PolledAta.Text
