import TemplateMarkup.Text.Basic

/-! JSON values as a report needs them: two spaces for every level, one item or field to a line. In a string
only quotes, backslashes and control characters are escaped. -/

namespace TemplateMarkup.Report

inductive Json where
  | string (text : Text)
  | number (n : Nat)
  | list (items : List Json)
  | record (fields : List (Text × Json))
deriving Repr

namespace Json

def hexDigit (n : Nat) : Char :=
  Nat.digitChar n

def escape (c : Char) : Text :=
  if c = '"' then ['\\', '"']
  else if c = '\\' then ['\\', '\\']
  else if c = '\x08' then ['\\', 'b']
  else if c = '\x0C' then ['\\', 'f']
  else if c = '\n' then ['\\', 'n']
  else if c = '\r' then ['\\', 'r']
  else if c = '\t' then ['\\', 't']
  else if c < ' ' then ['\\', 'u', '0', '0', hexDigit (c.toNat / 16), hexDigit (c.toNat % 16)]
  else [c]

def quote (text : Text) : Text :=
  '"' :: text.flatMap escape ++ ['"']

def newLine (level : Nat) : Text :=
  '\n' :: List.replicate (2 * level) ' '

mutual

def print (level : Nat) : Json → Text
  | string text => quote text
  | number n => Text.decimal n
  | list [] => ['[', ']']
  | list (item :: rest) => '[' :: printItems (level + 1) (item :: rest) ++ newLine level ++ [']']
  | record [] => ['{', '}']
  | record (field :: rest) =>
    '{' :: printFields (level + 1) (field :: rest) ++ newLine level ++ ['}']

def printItems (level : Nat) : List Json → Text
  | [] => []
  | item :: rest =>
    newLine level ++ print level item ++ (if rest.isEmpty then [] else [',']) ++
      printItems level rest

def printFields (level : Nat) : List (Text × Json) → Text
  | [] => []
  | (key, value) :: rest =>
    newLine level ++ quote key ++ [':', ' '] ++ print level value ++
      (if rest.isEmpty then [] else [',']) ++ printFields level rest

end

def render (value : Json) : Text :=
  print 0 value

end Json

end TemplateMarkup.Report
