import JobScheduler.Document.Basic

namespace JobScheduler.Document

def hexDigit (n : Nat) : Char := Nat.digitChar n

-- Controls, quotes and backslashes are escaped, all else stands for itself.
def escapeJson (c : Char) : List Char :=
  match c with
  | '"' => ['\\', '"']
  | '\\' => ['\\', '\\']
  | '\n' => ['\\', 'n']
  | '\r' => ['\\', 'r']
  | '\t' => ['\\', 't']
  | '\x08' => ['\\', 'b']
  | '\x0c' => ['\\', 'f']
  | c =>
      if c.toNat < 0x20 then
        ['\\', 'u', '0', '0', hexDigit (c.toNat / 16), hexDigit (c.toNat % 16)]
      else [c]

def quoteJson (text : String) : String :=
  String.ofList (['"'] ++ text.toList.flatMap escapeJson ++ ['"'])

mutual

-- The value on one line, without blanks between the parts.
def toJson : Document → String
  | .null => "null"
  | .boolean true => "true"
  | .boolean false => "false"
  | .integer value => toString value
  | .float literal => literal
  | .moment literal => quoteJson literal
  | .text value => quoteJson value
  | .list items => "[" ++ ",".intercalate (itemsToJson items) ++ "]"
  | .table entries => "\x7b" ++ ",".intercalate (entriesToJson entries) ++ "\x7d"

def itemsToJson : List Document → List String
  | [] => []
  | item :: rest => toJson item :: itemsToJson rest

def entriesToJson : List (String × Document) → List String
  | [] => []
  | (key, value) :: rest => (quoteJson key ++ ":" ++ toJson value) :: entriesToJson rest

end

end JobScheduler.Document
