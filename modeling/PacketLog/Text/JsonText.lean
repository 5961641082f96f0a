/-!
# JSON text

A string between quotes: quotes, backslashes and control characters are escaped,
everything else stands for itself.
-/

namespace PacketLog.JsonText

def escaped (c : Char) : List Char :=
  if c = '"' then ['\\', '"']
  else if c = '\\' then ['\\', '\\']
  else if c.toNat = 8 then ['\\', 'b']
  else if c.toNat = 9 then ['\\', 't']
  else if c.toNat = 10 then ['\\', 'n']
  else if c.toNat = 12 then ['\\', 'f']
  else if c.toNat = 13 then ['\\', 'r']
  else if c.toNat < 32 then
    ['\\', 'u', '0', '0', Nat.digitChar (c.toNat / 16), Nat.digitChar (c.toNat % 16)]
  else [c]

def quoted (s : String) : String :=
  "\"" ++ String.ofList (s.toList.flatMap escaped) ++ "\""

/-- An object from its members, whose values are already JSON. -/
def object (members : List (String × String)) : String :=
  "\x7b" ++ String.intercalate "," (members.map fun (key, value) => quoted key ++ ":" ++ value)
    ++ "\x7d"

def array (items : List String) : String :=
  "[" ++ String.intercalate "," items ++ "]"

end PacketLog.JsonText
