import ConwayTx.Text.Shown

/-!
# Quoted text

Text and characters quoted inside messages. Tab, newline, return and zero have short escapes; the
quote in use and the backslash are escaped; what is not shown as itself is written by code point.
-/

namespace ConwayTx.Text

def hexDigits (n : Nat) : String := String.ofList (Nat.toDigits 16 n)

def escape (quote c : Char) : String :=
  match c with
  | '\x00' => "\\0"
  | '\t' => "\\t"
  | '\n' => "\\n"
  | '\r' => "\\r"
  | c =>
    if c = '\\' || c = quote then "\\" ++ c.toString
    else if isShown c then c.toString
    else "\\u\x7b" ++ hexDigits c.toNat ++ "\x7d"

def quoted (text : String) : String :=
  "\"" ++ String.join (text.toList.map (escape '"')) ++ "\""

def quotedChar (c : Char) : String := "'" ++ escape '\'' c ++ "'"

example : quoted "a\"'\n" = "\"a\\\"'\\n\"" := by decide +kernel
example : quotedChar '\'' = "'\\''" := by decide +kernel
example : quotedChar '\x7f' = "'\\u\x7b7f\x7d'" := by decide +kernel

end ConwayTx.Text
