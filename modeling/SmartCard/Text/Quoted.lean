/-! Single characters quoted for error messages. -/

namespace SmartCard.Text

/-- Lower case hexadecimal digits of `n`, without leading zeros. -/
def hexNumber (n : Nat) : String := String.ofList (Nat.toDigits 16 n)

def isControl (c : Char) : Bool := c.toNat < 0x20 || (0x7F ≤ c.toNat && c.toNat < 0xA0)

/-- A character between quotation marks, control characters written by number. -/
def quoted (c : Char) : String :=
  let inner :=
    if c = '\x00' then "\\0"
    else if c = '\t' then "\\t"
    else if c = '\n' then "\\n"
    else if c = '\r' then "\\r"
    else if c = '\'' then "\\'"
    else if c = '\\' then "\\\\"
    else if isControl c then "\\u\x7b" ++ hexNumber c.toNat ++ "\x7d"
    else String.singleton c
  "'" ++ inner ++ "'"

end SmartCard.Text
