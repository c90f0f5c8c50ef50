/-!
JSON documents and their compact text. Numbers are kept as literals, so that nothing is lost before
a reader has decided what kind of number it wants.
-/

namespace ScopedStore

/-- `garbled` is a string that has no text, since it holds half a surrogate pair or bytes that are
not UTF-8. `unread` stands where reading broke off. -/
inductive Json where
  | null
  | bool (flag : Bool)
  | number (literal : String)
  | string (text : String)
  | garbled
  | array (items : List Json)
  | object (fields : List (Option String × Json))
  | unread

namespace Json

def ofNat (n : Nat) : Json := number (toString n)

def ofInt (n : Int) : Json := number (toString n)

def ofBool (flag : Bool) : Json := bool flag

def ofStrings (texts : List String) : Json := array (texts.map string)

/-- `null` stands for a value that is not there. -/
def ofOption {α : Type} (f : α → Json) : Option α → Json
  | none => null
  | some a => f a

def ofFields (fields : List (String × Json)) : Json :=
  object (fields.map fun (name, value) => (some name, value))

/-- A lowercase hexadecimal digit. -/
private def hexDigit (n : Nat) : Char := Nat.digitChar n

/-- A character inside a quoted text. Controls without a short escape are written in hexadecimal,
and everything beyond ASCII stands for itself. -/
def escapeChar (c : Char) : List Char :=
  match c with
  | '"' => ['\\', '"']
  | '\\' => ['\\', '\\']
  | '\x08' => ['\\', 'b']
  | '\x0c' => ['\\', 'f']
  | '\n' => ['\\', 'n']
  | '\r' => ['\\', 'r']
  | '\t' => ['\\', 't']
  | c =>
    if c.toNat < 0x20 then
      ['\\', 'u', '0', '0', hexDigit (c.toNat / 16), hexDigit (c.toNat % 16)]
    else [c]

def quote (text : String) : List Char :=
  '"' :: text.toList.flatMap escapeChar ++ ['"']

mutual

/-- The text of a document without any blanks. -/
def chars : Json → List Char
  | null => ['n', 'u', 'l', 'l']
  | bool true => ['t', 'r', 'u', 'e']
  | bool false => ['f', 'a', 'l', 's', 'e']
  | number literal => literal.toList
  | string text => quote text
  | garbled => quote "\ufffd"
  | array items => '[' :: itemChars items ++ [']']
  | object fields => '{' :: fieldChars fields ++ ['}']
  | unread => []

def itemChars : List Json → List Char
  | [] => []
  | [item] => item.chars
  | item :: rest => item.chars ++ ',' :: itemChars rest

def fieldChars : List (Option String × Json) → List Char
  | [] => []
  | [(name, value)] => quote (name.getD "\ufffd") ++ ':' :: value.chars
  | (name, value) :: rest =>
    quote (name.getD "\ufffd") ++ ':' :: value.chars ++ ',' :: fieldChars rest

end

def compact (document : Json) : String := String.ofList document.chars

end Json

end ScopedStore
