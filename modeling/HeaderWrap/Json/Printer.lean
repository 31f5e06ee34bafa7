/-! Printing JSON, indented. -/
namespace HeaderWrap.Json

inductive Value where
  | string (s : String)
  | array (items : List Value)
  | object (members : List (String × Value))

private def escaped (c : Char) : String :=
  match c with
  | '"' => "\\\""
  | '\\' => "\\\\"
  | '\x08' => "\\b"
  | '\x0c' => "\\f"
  | '\n' => "\\n"
  | '\r' => "\\r"
  | '\t' => "\\t"
  | c =>
    if c.toNat < 0x20 then
      let digits := Nat.toDigits 16 c.toNat
      "\\u" ++ String.ofList (List.replicate (4 - digits.length) '0' ++ digits)
    else c.toString

def quoted (s : String) : String := "\"" ++ String.join (s.toList.map escaped) ++ "\""

private def bracketed (left right : String) (depth : Nat) : List String → String
  | [] => left ++ right
  | items =>
    let start (depth : Nat) := "\n" ++ String.join (List.replicate depth "  ")
    left ++ String.intercalate "," (items.map (start (depth + 1) ++ ·)) ++ start depth ++ right

mutual

def Value.print (depth : Nat) : Value → String
  | .string s => quoted s
  | .array items => bracketed "[" "]" depth (printItems (depth + 1) items)
  | .object members => bracketed "\x7b" "\x7d" depth (printMembers (depth + 1) members)

private def printItems (depth : Nat) : List Value → List String
  | [] => []
  | v :: vs => v.print depth :: printItems depth vs

private def printMembers (depth : Nat) : List (String × Value) → List String
  | [] => []
  | (key, v) :: ms => (quoted key ++ ": " ++ v.print depth) :: printMembers depth ms

end

end HeaderWrap.Json
