import SqlWire.Text.Basic

/-! Comparison up to the case of ASCII letters. No other character has a
second case here, so keywords, type names and column names fold one character
to one character. -/
namespace SqlWire.Text

/-- ASCII capitals become small letters; all else stays. -/
def fold (text : Text) : Text := text.map Char.toLower

/-- Equal up to the case of ASCII letters. -/
def sameFolded (left right : Text) : Bool := fold left == fold right

/-- What follows `word`, when the text begins with it in any case. -/
def dropWord? : Text → Text → Option Text
  | [], text => some text
  | _ :: _, [] => none
  | w :: word, c :: text => if w.toLower = c.toLower then dropWord? word text else none

end SqlWire.Text
