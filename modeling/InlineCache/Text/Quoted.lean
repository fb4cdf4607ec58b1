import InlineCache.Text.Hidden

/-! Quoted text: double quotes around the characters, with the quote, the backslash and a few
controls escaped by a letter and every hidden character by its code point. -/
namespace InlineCache.Text

/-- The digits of a code point, lower case and without leading zeros. -/
def hexDigits (n : Nat) : List Char := Nat.toDigits 16 n

/-- One character of a quoted text. An apostrophe stands as it is. -/
def quoteChar (c : Char) : List Char :=
  if c = '\x00' then ['\\', '0']
  else if c = '\t' then ['\\', 't']
  else if c = '\r' then ['\\', 'r']
  else if c = '\n' then ['\\', 'n']
  else if c = '"' then ['\\', '"']
  else if c = '\\' then ['\\', '\\']
  else if isHidden c then ['\\', 'u', '\x7b'] ++ hexDigits c.toNat ++ ['\x7d']
  else [c]

/-- The characters of a text between double quotes. -/
def quoteChars (cs : List Char) : List Char := '"' :: cs.flatMap quoteChar ++ ['"']

def quote (s : String) : String := String.ofList (quoteChars s.toList)

@[simp] theorem toList_quote (s : String) : (quote s).toList = quoteChars s.toList := by
  simp [quote]

example : quoteChars "a\"b\t'\\".toList = "\"a\\\"b\\t'\\\\\"".toList := by decide
example : quoteChars ['\x1b'] = ['"', '\\', 'u', '\x7b', '1', 'b', '\x7d', '"'] := by
  decide +kernel

end InlineCache.Text
